import Lustre.Ldlm.ExtentLock

/-!
# The inodebits compatibility check (ldlm/ldlm_inodebits.c)

The granted queue of an IBITS resource is kept in skip lists: the locks of
one mode are contiguous and linked in one `l_sl_mode` ring, and within them
the locks of one set of bits are contiguous and linked in one `l_sl_policy`
ring.  `ldlm_inodebits_compat_queue` uses them to pass over a whole mode group
whose mode is compatible with the request, and to test a whole policy group by
its first lock.  The queue is modelled as its skip lists group it: a list of
mode groups, each a list of policy groups, and no group empty;
`ldlm_grant_lock_with_skiplist` keeps one group for each mode and bits
(`WellGrouped.ldlmGrantLockWithSkiplist`).

`ibitsConflicts` is the plain test of one lock against the request.  The test
of a policy group by its first lock reads that lock's client cookie for the
COS exception, but search_granted_lock groups COS locks by mode and bits only:
`ldlmInodebitsCompatQueue_misses_other_client` shows a COS lock of another
client missed, and one of the same client sent a blocking AST.  When each COS
policy group holds the locks of one client, `ldlmInodebitsCompatQueue_eq_plain`
shows that the skip-list walk gives the plain answer and the plain work list.
-/

namespace Lustre.Ldlm

/-! ## Locks and skip lists -/

def ldlmFlCosIncompat : UInt64 := 0x1000000

def ldlmFlCosEnabled : UInt64 := 0x200000000000000

/-- The fields of struct ldlm_lock that the inodebits code reads: the handle
stands for the lock's address, `lBits` is `l_policy_data.l_inodebits.bits`. -/
structure IbitsLock where
  lHandle : Nat
  lReqMode : LdlmMode
  lBits : UInt64
  lClientCookie : UInt64
  lFlags : UInt64
  lBlockingAst : Bool
  deriving DecidableEq, Repr

def IbitsLock.hasFlag (lock : IbitsLock) (flag : UInt64) : Bool := lock.lFlags &&& flag ≠ 0

/-- A policy group: its first lock and the others of its `l_sl_policy` ring,
all of one mode and one set of bits. -/
structure PolicyGroup where
  head : IbitsLock
  others : List IbitsLock
  alike : ∀ lock ∈ others, lock.lReqMode = head.lReqMode ∧ lock.lBits = head.lBits

/-- A mode group: its policy groups in queue order, all of one mode. -/
structure ModeGroup where
  first : PolicyGroup
  rest : List PolicyGroup
  oneMode : ∀ group ∈ rest, group.head.lReqMode = first.head.lReqMode

def PolicyGroup.locks (group : PolicyGroup) : List IbitsLock := group.head :: group.others

def ModeGroup.policyGroups (group : ModeGroup) : List PolicyGroup := group.first :: group.rest

def ModeGroup.locks (group : ModeGroup) : List IbitsLock :=
  group.policyGroups.flatMap PolicyGroup.locks

/-- The queue in `l_res_link` order. -/
def queueLocks (queue : List ModeGroup) : List IbitsLock := queue.flatMap ModeGroup.locks

/-- What search_granted_lock keeps besides: one mode group for each mode, and
within one, one policy group for each set of bits. -/
structure WellGrouped (queue : List ModeGroup) : Prop where
  modesDistinct : (queue.map (·.first.head.lReqMode)).Nodup
  bitsDistinct : ∀ group ∈ queue, (group.policyGroups.map (·.head.lBits)).Nodup

instance (queue : List ModeGroup) : Decidable (WellGrouped queue) :=
  decidable_of_iff ((queue.map (·.first.head.lReqMode)).Nodup ∧
      ∀ group ∈ queue, (group.policyGroups.map (·.head.lBits)).Nodup)
    ⟨fun ⟨modes, bits⟩ => ⟨modes, bits⟩, fun ⟨modes, bits⟩ => ⟨modes, bits⟩⟩

theorem PolicyGroup.mode_of_mem {group : PolicyGroup} {lock : IbitsLock} (mem : lock ∈ group.locks) :
    lock.lReqMode = group.head.lReqMode ∧ lock.lBits = group.head.lBits := by
  rcases List.mem_cons.mp mem with rfl | other
  · exact ⟨rfl, rfl⟩
  · exact group.alike lock other

theorem ModeGroup.mode_of_mem {group : ModeGroup} {policy : PolicyGroup}
    (mem : policy ∈ group.policyGroups) : policy.head.lReqMode = group.first.head.lReqMode := by
  rcases List.mem_cons.mp mem with rfl | other
  · rfl
  · exact group.oneMode policy other

/-! ## Building the skip lists -/

/-- A lock added after the last lock of a policy group of its mode and bits. -/
def PolicyGroup.push (group : PolicyGroup) (lock : IbitsLock)
    (alike : lock.lReqMode = group.head.lReqMode ∧ lock.lBits = group.head.lBits) : PolicyGroup :=
  ⟨group.head, group.others ++ [lock], by
    intro other mem
    rcases List.mem_append.mp mem with old | new
    · exact group.alike other old
    · rw [List.mem_singleton.mp new]
      exact alike⟩

/-- A policy group of one lock. -/
def PolicyGroup.single (lock : IbitsLock) : PolicyGroup := ⟨lock, [], by simp⟩

/-- The policy loop of search_granted_lock in the mode group of the lock's
mode: after the last lock of the group of its bits, or as a new group at the
end of the mode group. -/
def addToPolicyGroups (lock : IbitsLock) (mode : LdlmMode) (ofMode : lock.lReqMode = mode) :
    (groups : List PolicyGroup) → (∀ group ∈ groups, group.head.lReqMode = mode) →
      List PolicyGroup
  | [], _ => [PolicyGroup.single lock]
  | group :: rest, modes =>
    if sameBits : group.head.lBits = lock.lBits then
      group.push lock ⟨by rw [ofMode, modes group List.mem_cons_self], sameBits.symm⟩ :: rest
    else group :: addToPolicyGroups lock mode ofMode rest fun g mem => modes g (List.mem_cons_of_mem _ mem)

theorem addToPolicyGroups_nil (lock : IbitsLock) (mode : LdlmMode) (ofMode : lock.lReqMode = mode)
    (modes : ∀ group ∈ ([] : List PolicyGroup), group.head.lReqMode = mode) :
    addToPolicyGroups lock mode ofMode [] modes = [PolicyGroup.single lock] := rfl

theorem addToPolicyGroups_cons (lock : IbitsLock) (mode : LdlmMode) (ofMode : lock.lReqMode = mode)
    (group : PolicyGroup) (rest : List PolicyGroup)
    (modes : ∀ g ∈ group :: rest, g.head.lReqMode = mode) :
    addToPolicyGroups lock mode ofMode (group :: rest) modes =
      if sameBits : group.head.lBits = lock.lBits then
        group.push lock ⟨by rw [ofMode, modes group List.mem_cons_self], sameBits.symm⟩ :: rest
      else
        group :: addToPolicyGroups lock mode ofMode rest fun g mem => modes g (List.mem_cons_of_mem _ mem) :=
  rfl

theorem head_addToPolicyGroups (lock : IbitsLock) (mode : LdlmMode) (ofMode : lock.lReqMode = mode)
    (groups : List PolicyGroup) (modes : ∀ group ∈ groups, group.head.lReqMode = mode) :
    ∀ group ∈ addToPolicyGroups lock mode ofMode groups modes, group.head.lReqMode = mode := by
  induction groups with
  | nil =>
    intro group mem
    rw [addToPolicyGroups_nil, List.mem_singleton] at mem
    rw [mem]
    exact ofMode
  | cons first rest ih =>
    intro group mem
    rw [addToPolicyGroups_cons] at mem
    split at mem
    · rcases List.mem_cons.mp mem with rfl | later
      · exact modes first List.mem_cons_self
      · exact modes group (List.mem_cons_of_mem _ later)
    · rcases List.mem_cons.mp mem with rfl | later
      · exact modes group List.mem_cons_self
      · exact ih _ group later

/-- A mode group with a lock of its mode added. -/
def ModeGroup.addLock (group : ModeGroup) (lock : IbitsLock)
    (ofMode : lock.lReqMode = group.first.head.lReqMode) : ModeGroup :=
  let modes : ∀ policy ∈ group.policyGroups, policy.head.lReqMode = group.first.head.lReqMode :=
    fun _ mem => ModeGroup.mode_of_mem mem
  match added : addToPolicyGroups lock _ ofMode group.policyGroups modes with
  | [] => group
  | first :: rest =>
    ⟨first, rest, by
      have heads := head_addToPolicyGroups lock _ ofMode group.policyGroups modes
      rw [added] at heads
      intro policy mem
      rw [heads policy (List.mem_cons_of_mem _ mem), heads first List.mem_cons_self]⟩

section Build

variable {lock : IbitsLock} {mode : LdlmMode} {ofMode : lock.lReqMode = mode}

theorem addToPolicyGroups_ne_nil (groups : List PolicyGroup)
    (modes : ∀ group ∈ groups, group.head.lReqMode = mode) :
    addToPolicyGroups lock mode ofMode groups modes ≠ [] := by
  cases groups with
  | nil => simp [addToPolicyGroups_nil]
  | cons first rest =>
    rw [addToPolicyGroups_cons]
    split <;> simp

/-- The first locks of the policy groups stay; new bits add the lock's group
at the end. -/
theorem heads_addToPolicyGroups (groups : List PolicyGroup)
    (modes : ∀ group ∈ groups, group.head.lReqMode = mode) :
    (addToPolicyGroups lock mode ofMode groups modes).map (·.head) =
      if groups.any (·.head.lBits = lock.lBits) then groups.map (·.head)
      else groups.map (·.head) ++ [lock] := by
  induction groups with
  | nil => rfl
  | cons first rest ih =>
    rw [addToPolicyGroups_cons]
    by_cases sameBits : first.head.lBits = lock.lBits
    · simp [sameBits, PolicyGroup.push]
    · simp only [sameBits, dite_false, List.map_cons, List.any_cons, decide_false,
        Bool.false_or, ih]
      split <;> rfl

/-- The lock joins the locks of the policy groups. -/
theorem locks_addToPolicyGroups (groups : List PolicyGroup)
    (modes : ∀ group ∈ groups, group.head.lReqMode = mode) :
    ((addToPolicyGroups lock mode ofMode groups modes).flatMap PolicyGroup.locks).Perm
      (groups.flatMap PolicyGroup.locks ++ [lock]) := by
  induction groups with
  | nil => exact List.Perm.refl _
  | cons first rest ih =>
    rw [addToPolicyGroups_cons]
    by_cases sameBits : first.head.lBits = lock.lBits
    · simp only [sameBits, dite_true, List.flatMap_cons, PolicyGroup.push, PolicyGroup.locks,
        List.cons_append, List.append_assoc, List.nil_append]
      exact List.Perm.cons _ (List.Perm.append_left _ (List.perm_append_singleton _ _).symm)
    · simp only [sameBits, dite_false, List.flatMap_cons, List.append_assoc]
      exact List.Perm.append_left _ (ih _)

theorem ModeGroup.policyGroups_addLock (group : ModeGroup)
    (ofMode : lock.lReqMode = group.first.head.lReqMode) :
    (group.addLock lock ofMode).policyGroups =
      addToPolicyGroups lock _ ofMode group.policyGroups fun _ mem => ModeGroup.mode_of_mem mem := by
  unfold ModeGroup.addLock
  dsimp only
  split
  · next empty => exact absurd empty (addToPolicyGroups_ne_nil _ _)
  · next first rest added => exact added.symm

theorem ModeGroup.first_addLock (group : ModeGroup)
    (ofMode : lock.lReqMode = group.first.head.lReqMode) :
    (group.addLock lock ofMode).first.head = group.first.head := by
  have heads := @heads_addToPolicyGroups lock _ ofMode group.policyGroups
    fun _ mem => ModeGroup.mode_of_mem mem
  rw [← ModeGroup.policyGroups_addLock] at heads
  split at heads <;> simpa [ModeGroup.policyGroups] using congrArg List.head? heads

end Build

/-- ldlm_grant_lock_with_skiplist on an IBITS granted queue: search_granted_lock
finds the mode group of the lock's mode, or none, and ldlm_granted_list_add_lock
links the lock there, or in a new mode group at the end of the queue; a
destroyed lock is not added. -/
def ldlmGrantLockWithSkiplist (queue : List ModeGroup) (lock : IbitsLock) : List ModeGroup :=
  if lock.hasFlag ldlmFlDestroyed then queue else addToModeGroups queue
where
  addToModeGroups : List ModeGroup → List ModeGroup
    | [] => [⟨PolicyGroup.single lock, [], by simp⟩]
    | group :: rest =>
      if sameMode : group.first.head.lReqMode = lock.lReqMode then
        group.addLock lock sameMode.symm :: rest
      else group :: addToModeGroups rest

theorem ldlmGrantLockWithSkiplist.addToModeGroups_nil (lock : IbitsLock) :
    addToModeGroups lock [] = [⟨PolicyGroup.single lock, [], by simp⟩] := rfl

theorem ldlmGrantLockWithSkiplist.addToModeGroups_cons (lock : IbitsLock) (group : ModeGroup)
    (rest : List ModeGroup) :
    addToModeGroups lock (group :: rest) =
      if sameMode : group.first.head.lReqMode = lock.lReqMode then
        group.addLock lock sameMode.symm :: rest
      else group :: addToModeGroups lock rest := rfl

section Grant

variable {lock : IbitsLock}

/-- The first locks of the mode groups stay; a new mode adds the lock's group
at the end. -/
theorem modes_addToModeGroups (queue : List ModeGroup) :
    (ldlmGrantLockWithSkiplist.addToModeGroups lock queue).map (·.first.head.lReqMode) =
      if queue.any (·.first.head.lReqMode = lock.lReqMode) then queue.map (·.first.head.lReqMode)
      else queue.map (·.first.head.lReqMode) ++ [lock.lReqMode] := by
  induction queue with
  | nil => rfl
  | cons group rest ih =>
    rw [ldlmGrantLockWithSkiplist.addToModeGroups_cons]
    by_cases sameMode : group.first.head.lReqMode = lock.lReqMode
    · simp [sameMode, ModeGroup.first_addLock]
    · simp only [sameMode, dite_false, List.map_cons, List.any_cons, decide_false,
        Bool.false_or, ih]
      split <;> rfl

/-- The lock joins the granted queue. -/
theorem locks_addToModeGroups (queue : List ModeGroup) :
    (queueLocks (ldlmGrantLockWithSkiplist.addToModeGroups lock queue)).Perm
      (queueLocks queue ++ [lock]) := by
  induction queue with
  | nil => exact List.Perm.refl _
  | cons group rest ih =>
    rw [ldlmGrantLockWithSkiplist.addToModeGroups_cons]
    by_cases sameMode : group.first.head.lReqMode = lock.lReqMode
    · have added : (group.addLock lock sameMode.symm).locks.Perm (group.locks ++ [lock]) := by
        rw [ModeGroup.locks, ModeGroup.policyGroups_addLock]
        exact locks_addToPolicyGroups _ _
      simp only [sameMode, dite_true, queueLocks, List.flatMap_cons, List.append_assoc]
      exact (added.append_right _).trans
        (by rw [List.append_assoc]; exact List.Perm.append_left _ List.perm_append_comm)
    · simp only [sameMode, dite_false, queueLocks, List.flatMap_cons, List.append_assoc]
      exact List.Perm.append_left _ ih

/-- Where a mode group of the new queue comes from. -/
theorem mem_addToModeGroups {queue : List ModeGroup} {group : ModeGroup}
    (mem : group ∈ ldlmGrantLockWithSkiplist.addToModeGroups lock queue) :
    group ∈ queue ∨
      (∃ old ∈ queue, ∃ ofMode, group = old.addLock lock ofMode) ∨
      group.policyGroups = [PolicyGroup.single lock] := by
  induction queue with
  | nil =>
    simp only [ldlmGrantLockWithSkiplist.addToModeGroups_nil, List.mem_singleton] at mem
    exact .inr (.inr (by rw [mem]; rfl))
  | cons first rest ih =>
    rw [ldlmGrantLockWithSkiplist.addToModeGroups_cons] at mem
    split at mem
    · next sameMode =>
      rcases List.mem_cons.mp mem with rfl | later
      · exact .inr (.inl ⟨first, List.mem_cons_self, sameMode.symm, rfl⟩)
      · exact .inl (List.mem_cons_of_mem _ later)
    · rcases List.mem_cons.mp mem with rfl | later
      · exact .inl List.mem_cons_self
      · rcases ih later with old | ⟨old, inRest, ofMode, added⟩ | fresh
        · exact .inl (List.mem_cons_of_mem _ old)
        · exact .inr (.inl ⟨old, List.mem_cons_of_mem _ inRest, ofMode, added⟩)
        · exact .inr (.inr fresh)

/-- Adding a lock keeps one policy group for each set of bits. -/
theorem nodup_bits_addLock {group : ModeGroup} (distinct : (group.policyGroups.map (·.head.lBits)).Nodup)
    (ofMode : lock.lReqMode = group.first.head.lReqMode) :
    ((group.addLock lock ofMode).policyGroups.map (·.head.lBits)).Nodup := by
  have heads := @heads_addToPolicyGroups lock _ ofMode group.policyGroups
    fun _ mem => ModeGroup.mode_of_mem mem
  rw [← ModeGroup.policyGroups_addLock] at heads
  have viaHeads : ∀ groups : List PolicyGroup,
      groups.map (·.head.lBits) = (groups.map (·.head)).map IbitsLock.lBits := fun _ => by simp
  rw [viaHeads, heads]
  split
  · rw [← viaHeads]
    exact distinct
  · next fresh =>
    rw [List.map_append, List.nodup_append, ← viaHeads]
    refine ⟨distinct, List.nodup_singleton _, ?_⟩
    simp only [List.any_eq_true, decide_eq_true_eq, not_exists, not_and] at fresh
    simp only [List.mem_map, List.map_cons, List.map_nil, List.mem_singleton]
    rintro _ ⟨policy, mem, rfl⟩ _ rfl same
    exact fresh policy mem same

/-- ldlm_grant_lock_with_skiplist keeps the skip lists well grouped, and the
granted queue gains the lock unless it was destroyed. -/
theorem WellGrouped.ldlmGrantLockWithSkiplist {queue : List ModeGroup}
    (grouped : WellGrouped queue) (lock : IbitsLock) :
    WellGrouped (ldlmGrantLockWithSkiplist queue lock) ∧
      (queueLocks (ldlmGrantLockWithSkiplist queue lock)).Perm
        (if lock.hasFlag ldlmFlDestroyed then queueLocks queue else queueLocks queue ++ [lock]) := by
  unfold Lustre.Ldlm.ldlmGrantLockWithSkiplist
  split
  · exact ⟨grouped, List.Perm.refl _⟩
  · refine ⟨⟨?_, ?_⟩, locks_addToModeGroups queue⟩
    · rw [modes_addToModeGroups]
      split
      · exact grouped.modesDistinct
      · next fresh =>
        rw [List.nodup_append]
        refine ⟨grouped.modesDistinct, List.nodup_singleton _, ?_⟩
        simp only [List.any_eq_true, decide_eq_true_eq, not_exists, not_and] at fresh
        simp only [List.mem_map, List.mem_singleton]
        rintro _ ⟨group, mem, rfl⟩ _ rfl same
        exact fresh group mem same
    · intro group mem
      rcases mem_addToModeGroups mem with old | ⟨old, inQueue, ofMode, rfl⟩ | fresh
      · exact grouped.bitsDistinct group old
      · exact nodup_bits_addLock (grouped.bitsDistinct old inQueue) ofMode
      · simp [fresh]

end Grant

/-! ## ldlm_inodebits_compat_queue -/

/-- ldlm_add_ast_work_item for a blocking AST, behind the `l_blocking_ast`
test of its caller: a lock not yet sent one goes to the front of the list. -/
def addBlWork (work : List Nat) (lock : IbitsLock) : List Nat :=
  if lock.lBlockingAst ∧ ¬ lock.hasFlag ldlmFlAstSent then lock.lHandle :: work else work

/-- The COS exception of the policy loop: a COS lock of the request's own
client does not conflict when COS is enabled. -/
def sameClientCos (req lock : IbitsLock) : Bool :=
  lock.lReqMode = .cos && !req.hasFlag ldlmFlCosIncompat && req.hasFlag ldlmFlCosEnabled &&
    lock.lClientCookie = req.lClientCookie

/-- The COS exception of the mode loop: every COS lock is compatible when COS
is disabled for the request. -/
def cosDisabled (req lock : IbitsLock) : Bool :=
  lock.lReqMode = .cos && !req.hasFlag ldlmFlCosIncompat && !req.hasFlag ldlmFlCosEnabled

theorem cosDisabled_eq (req lock : IbitsLock) :
    cosDisabled req lock =
      (lock.lReqMode = .cos && !req.hasFlag ldlmFlCosIncompat && !req.hasFlag ldlmFlCosEnabled) := rfl

/-- The loop over the policy groups of a mode group whose mode conflicts:
`.inl` with the value of an early `RETURN`, else the compatibility and the
work list. -/
def policyGroupsLoop (req : IbitsLock) (withList : Bool) :
    List PolicyGroup → Int → List Nat → Int ⊕ (Int × List Nat)
  | [], compat, work => .inr (compat, work)
  | group :: rest, compat, work =>
    let lock := group.head
    if lock.lBits &&& req.lBits ≠ 0 then
      -- only the first lock of the group is asked for its client
      if sameClientCos req lock then policyGroupsLoop req withList rest compat work
      else if !withList then .inl 0
      else policyGroupsLoop req withList rest 0 (group.others.foldl addBlWork (addBlWork work lock))
    else policyGroupsLoop req withList rest compat work

/-- The loop over the mode groups of the queue, up to the request itself. -/
def modeGroupsLoop (req : IbitsLock) (withList : Bool) :
    List ModeGroup → Int → List Nat → Int × List Nat
  | [], compat, work => (compat, work)
  | group :: rest, compat, work =>
    let lock := group.first.head
    if lock.lHandle = req.lHandle then (compat, work)
    else if cosDisabled req lock then modeGroupsLoop req withList rest compat work
    else if lockmodeCompat lock.lReqMode req.lReqMode then modeGroupsLoop req withList rest compat work
    else
      match policyGroupsLoop req withList group.policyGroups compat work with
      | .inl rc => (rc, work)
      | .inr (compat, work) => modeGroupsLoop req withList rest compat work

/-- ldlm_inodebits_compat_queue: 1 when the request is compatible with the
queue, 0 if not, and the locks to send a blocking AST to when a work list is
given; `none` for a request without bits (the LASSERT). -/
def ldlmInodebitsCompatQueue (queue : List ModeGroup) (req : IbitsLock) (withList : Bool) :
    Option (Int × List Nat) :=
  if req.lBits = 0 then none else some (modeGroupsLoop req withList queue 1 [])

/-- The plain test of a lock against the request: the modes conflict, the
bits meet, and neither COS exception applies to the lock. -/
def ibitsConflicts (req lock : IbitsLock) : Bool :=
  !lockmodeCompat lock.lReqMode req.lReqMode && lock.lBits &&& req.lBits ≠ 0 &&
    !cosDisabled req lock && !sameClientCos req lock

theorem ibitsConflicts_eq (req lock : IbitsLock) :
    ibitsConflicts req lock =
      (!lockmodeCompat lock.lReqMode req.lReqMode && lock.lBits &&& req.lBits ≠ 0 &&
        !cosDisabled req lock && !sameClientCos req lock) := rfl

/-! ## The skip lists give the plain answer when each COS group has one client -/

section Plain

variable {req : IbitsLock}

/-- Every lock of a policy group is tested as its first lock is, when the
group's COS locks, if any, belong to one client. -/
theorem PolicyGroup.conflicts_eq_head {group : PolicyGroup}
    (oneClient : group.head.lReqMode = .cos →
      ∀ lock ∈ group.others, lock.lClientCookie = group.head.lClientCookie) :
    ∀ lock ∈ group.locks, ibitsConflicts req lock = ibitsConflicts req group.head := by
  intro lock mem
  obtain ⟨sameMode, sameBits⟩ := PolicyGroup.mode_of_mem mem
  rcases List.mem_cons.mp mem with rfl | other
  · rfl
  · by_cases cos : group.head.lReqMode = .cos
    · have sameCookie := oneClient cos lock other
      simp [ibitsConflicts_eq, cosDisabled_eq, sameClientCos, sameMode, sameBits, sameCookie]
    · simp [ibitsConflicts_eq, cosDisabled_eq, sameClientCos, sameMode, sameBits, cos]

/-- A group tested as its first lock: all of it conflicts, or none. -/
theorem filter_any_of_uniform {locks : List IbitsLock} {head : IbitsLock}
    (uniform : ∀ lock ∈ locks, ibitsConflicts req lock = ibitsConflicts req head) :
    locks.filter (ibitsConflicts req) = (if ibitsConflicts req head then locks else []) ∧
      (locks.any (ibitsConflicts req) = (ibitsConflicts req head && !locks.isEmpty)) := by
  cases conflicting : ibitsConflicts req head
  · constructor
    · simp only [if_false, Bool.false_eq_true]
      exact List.filter_eq_nil_iff.mpr fun lock mem => by simp [uniform lock mem, conflicting]
    · simp only [Bool.false_and, List.any_eq_false]
      exact fun lock mem => by simp [uniform lock mem, conflicting]
  · constructor
    · simp only [if_true]
      exact List.filter_eq_self.mpr fun lock mem => by simp [uniform lock mem, conflicting]
    · cases locks with
      | nil => rfl
      | cons first rest =>
        simp [uniform first List.mem_cons_self, conflicting]

/-- The policy loop over the groups of a mode group whose mode conflicts with
the request gives the plain answer on their locks. -/
theorem policyGroupsLoop_eq (withList : Bool) (groups : List PolicyGroup) (compat : Int)
    (work : List Nat)
    (clash : ∀ group ∈ groups, lockmodeCompat group.head.lReqMode req.lReqMode = false ∧
      cosDisabled req group.head = false)
    (uniform : ∀ group ∈ groups, ∀ lock ∈ group.locks,
      ibitsConflicts req lock = ibitsConflicts req group.head) :
    policyGroupsLoop req withList groups compat work =
      let locks := groups.flatMap PolicyGroup.locks
      if withList then
        .inr (if locks.any (ibitsConflicts req) then 0 else compat,
          (locks.filter (ibitsConflicts req)).foldl addBlWork work)
      else if locks.any (ibitsConflicts req) then .inl 0 else .inr (compat, work) := by
  induction groups generalizing compat work with
  | nil => cases withList <;> rfl
  | cons group rest ih =>
    have restClash := fun g mem => clash g (List.mem_cons_of_mem group mem)
    have restUniform := fun g mem => uniform g (List.mem_cons_of_mem group mem)
    obtain ⟨modeClash, notDisabled⟩ := clash group List.mem_cons_self
    obtain ⟨groupFilter, groupAny⟩ := filter_any_of_uniform (uniform group List.mem_cons_self)
    -- the first lock conflicts when the bits meet and it is not the client's own COS lock
    have headConflicts : ibitsConflicts req group.head =
        (decide (group.head.lBits &&& req.lBits ≠ 0) && !sameClientCos req group.head) := by
      simp [ibitsConflicts_eq, modeClash, notDisabled]
    have nonempty : group.locks.isEmpty = false := rfl
    simp only [List.flatMap_cons, List.filter_append, List.any_append, groupFilter, groupAny,
      nonempty, Bool.not_false, Bool.and_true]
    simp only [policyGroupsLoop]
    by_cases meets : group.head.lBits &&& req.lBits ≠ 0
    · by_cases own : sameClientCos req group.head = true
      · have quiet : ibitsConflicts req group.head = false := by simp [headConflicts, own]
        simp only [meets, own, quiet, if_true, if_false, Bool.false_eq_true, Bool.false_or,
          List.nil_append, ne_eq, not_false_eq_true]
        exact ih compat work restClash restUniform
      · have loud : ibitsConflicts req group.head = true := by simp [headConflicts, meets, own]
        simp only [meets, own, loud, if_true, if_false, Bool.false_eq_true, Bool.true_or, ne_eq,
          not_false_eq_true]
        cases withList
        · rfl
        · rw [ih 0 _ restClash restUniform]
          simp [List.foldl_append, PolicyGroup.locks]
    · have quiet : ibitsConflicts req group.head = false := by simp [headConflicts, meets]
      simp only [meets, quiet, if_false, Bool.false_eq_true, Bool.false_or, List.nil_append]
      exact ih compat work restClash restUniform

/-- Every lock of a mode group has the mode of its first lock. -/
theorem ModeGroup.mode_of_mem_locks {group : ModeGroup} {lock : IbitsLock}
    (mem : lock ∈ group.locks) : lock.lReqMode = group.first.head.lReqMode := by
  obtain ⟨policy, inGroup, inPolicy⟩ := List.mem_flatMap.mp mem
  rw [(PolicyGroup.mode_of_mem inPolicy).1, ModeGroup.mode_of_mem inGroup]

/-- A mode group passed over as a whole holds no conflicting lock. -/
theorem ModeGroup.no_conflicts_of_skipped {group : ModeGroup}
    (skipped : cosDisabled req group.first.head = true ∨
      lockmodeCompat group.first.head.lReqMode req.lReqMode = true) :
    group.locks.any (ibitsConflicts req) = false := by
  simp only [List.any_eq_false]
  intro lock mem
  have sameMode := ModeGroup.mode_of_mem_locks mem
  rcases skipped with disabled | compatible
  · simp only [cosDisabled_eq, Bool.and_eq_true, decide_eq_true_eq] at disabled
    simp [ibitsConflicts_eq, cosDisabled_eq, sameMode, disabled]
  · simp [ibitsConflicts_eq, sameMode, compatible]

/-- The mode loop over a queue not holding the request, whose COS policy
groups each hold the locks of one client, gives the plain answer. -/
theorem modeGroupsLoop_eq (withList : Bool) (queue : List ModeGroup) (compat : Int)
    (work : List Nat) (notQueued : ∀ lock ∈ queueLocks queue, lock.lHandle ≠ req.lHandle)
    (oneClient : ∀ group ∈ queue, ∀ policy ∈ group.policyGroups, policy.head.lReqMode = .cos →
      ∀ lock ∈ policy.others, lock.lClientCookie = policy.head.lClientCookie) :
    modeGroupsLoop req withList queue compat work =
      (if (queueLocks queue).any (ibitsConflicts req) then 0 else compat,
        if withList then ((queueLocks queue).filter (ibitsConflicts req)).foldl addBlWork work
        else work) := by
  induction queue generalizing compat work with
  | nil => cases withList <;> rfl
  | cons group rest ih =>
    have restQueued := fun lock mem =>
      notQueued lock (List.mem_append_right group.locks mem)
    have restClient := fun g mem => oneClient g (List.mem_cons_of_mem group mem)
    have firstQueued : group.first.head.lHandle ≠ req.lHandle :=
      notQueued _ (List.mem_append_left _ (List.mem_append_left _ List.mem_cons_self))
    simp only [queueLocks, List.flatMap_cons] at ih ⊢
    simp only [modeGroupsLoop, firstQueued, if_false, List.any_append, List.filter_append,
      List.foldl_append]
    by_cases disabled : cosDisabled req group.first.head = true
    · -- COS is off for the request: the whole COS group is passed over
      have quiet := ModeGroup.no_conflicts_of_skipped (.inl disabled)
      have none : group.locks.filter (ibitsConflicts req) = [] := by
        simpa [List.filter_eq_nil_iff, List.any_eq_false] using quiet
      simp only [disabled, if_true, quiet, Bool.false_or, none, List.foldl_nil]
      exact ih compat work restQueued restClient
    · by_cases compatible : lockmodeCompat group.first.head.lReqMode req.lReqMode = true
      · have quiet := ModeGroup.no_conflicts_of_skipped (.inr compatible)
        have none : group.locks.filter (ibitsConflicts req) = [] := by
          simpa [List.filter_eq_nil_iff, List.any_eq_false] using quiet
        simp only [disabled, compatible, if_true, if_false, Bool.false_eq_true, quiet,
          Bool.false_or, none, List.foldl_nil]
        exact ih compat work restQueued restClient
      · -- the mode conflicts: the policy loop decides, group by group
        have clash : ∀ policy ∈ group.policyGroups,
            lockmodeCompat policy.head.lReqMode req.lReqMode = false ∧
              cosDisabled req policy.head = false := by
          intro policy mem
          have sameMode := ModeGroup.mode_of_mem mem
          constructor
          · simpa [sameMode] using compatible
          · simpa [cosDisabled_eq, sameMode] using disabled
        have uniform := fun policy mem =>
          @PolicyGroup.conflicts_eq_head req policy (oneClient group List.mem_cons_self policy mem)
        rw [if_neg disabled, if_neg compatible, policyGroupsLoop_eq withList _ compat work clash uniform]
        have locksEq : group.policyGroups.flatMap PolicyGroup.locks = group.locks := rfl
        simp only [locksEq]
        cases withList
        · cases loud : group.locks.any (ibitsConflicts req)
          · simp only [if_false, Bool.false_eq_true, Bool.false_or]
            exact ih compat work restQueued restClient
          · simp
        · cases loud : group.locks.any (ibitsConflicts req)
          · simp only [if_true, if_false, Bool.false_eq_true, Bool.false_or]
            exact ih compat _ restQueued restClient
          · simp only [if_true, Bool.true_or]
            rw [ih 0 _ restQueued restClient]
            simp

end Plain


/-- On a queue that does not hold the request and whose COS policy groups
each hold the locks of one client, ldlm_inodebits_compat_queue gives the plain
answer: 0 exactly when some lock conflicts, and as work list the conflicting
locks in queue order, each pushed to the front by ldlm_add_ast_work_item. -/
theorem ldlmInodebitsCompatQueue_eq_plain (queue : List ModeGroup) (req : IbitsLock)
    (withList : Bool) (bitsSet : req.lBits ≠ 0)
    (notQueued : ∀ lock ∈ queueLocks queue, lock.lHandle ≠ req.lHandle)
    (oneClient : ∀ group ∈ queue, ∀ policy ∈ group.policyGroups, policy.head.lReqMode = .cos →
      ∀ lock ∈ policy.others, lock.lClientCookie = policy.head.lClientCookie) :
    ldlmInodebitsCompatQueue queue req withList =
      some (if (queueLocks queue).any (ibitsConflicts req) then 0 else 1,
        if withList then ((queueLocks queue).filter (ibitsConflicts req)).foldl addBlWork []
        else []) := by
  rw [ldlmInodebitsCompatQueue, if_neg bitsSet, modeGroupsLoop_eq withList queue 1 [] notQueued oneClient]

/-! ## A COS policy group of two clients -/

/-- A COS lock on the first inode bit, granted to the client of cookie `cookie`. -/
def cosLock (handle : Nat) (cookie : UInt64) : IbitsLock :=
  ⟨handle, .cos, 1, cookie, 0, true⟩

/-- Granted COS locks of two clients on one bit, in one policy group, the
lock of `firstCookie` first, as search_granted_lock links them. -/
def twoClientCosQueue (firstCookie secondCookie : UInt64) : List ModeGroup :=
  [⟨⟨cosLock 1 firstCookie, [cosLock 2 secondCookie], by simp [cosLock]⟩, [], by simp⟩]

/-- A PW request of client 10 on the same bit, with COS enabled. -/
def cosEnabledRequest : IbitsLock :=
  ⟨3, .pw, 1, 10, ldlmFlCosEnabled, true⟩

theorem ldlmInodebitsCompatQueue_misses_other_client :
    ldlmGrantLockWithSkiplist (ldlmGrantLockWithSkiplist [] (cosLock 1 10)) (cosLock 2 20) =
        twoClientCosQueue 10 20 ∧
      WellGrouped (twoClientCosQueue 10 20) ∧ cosEnabledRequest.lBits ≠ 0 ∧
      ibitsConflicts cosEnabledRequest (cosLock 2 20) = true ∧
      ldlmInodebitsCompatQueue (twoClientCosQueue 10 20) cosEnabledRequest false = some (1, []) ∧
      ldlmInodebitsCompatQueue (twoClientCosQueue 10 20) cosEnabledRequest true = some (1, []) ∧
      WellGrouped (twoClientCosQueue 20 10) ∧
      ibitsConflicts cosEnabledRequest (cosLock 2 10) = false ∧
      ldlmInodebitsCompatQueue (twoClientCosQueue 20 10) cosEnabledRequest true = some (0, [2, 1]) := by
  refine ⟨rfl, by decide, by decide, rfl, rfl, rfl, by decide, rfl, rfl⟩

end Lustre.Ldlm
