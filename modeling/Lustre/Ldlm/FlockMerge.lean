import Lustre.Ldlm.Flock
import Lustre.Library.Groups
import Lustre.Library.Spans
import Lustre.Library.Word

/-!
# Merging and splitting flock locks

The granted flock locks of one owner on a resource stand together in
`lr_granted`, sorted by start and apart, and two of one mode do not even touch
(`FlockOrdered`).  Read byte by byte they are a partial map from offsets to
modes (`flockOwnerMode`).  When ldlm_process_flock_lock grants a request, its
merge loop walks the owner's locks from the first one: it widens the request
over the locks of its mode that overlap or touch it, cuts the locks of other
modes it overlaps, splitting one that holds it inside, and puts the request
where it stopped.

The loop keeps an invariant (`MergeInv`) that splits the owner's locks into
those it has passed, the lock `new` stands for, and those still to come, and
that says at every byte what the owner must hold in the end (`flockTarget`):
the request's mode in its range, the old mode elsewhere.  The invariant carries
the loop through both passes of the function, the second one after a lock for
a split is allocated.
-/

namespace Lustre.Ldlm

open Groups

/-! ## Owners, ranges and the map of an owner's locks -/

/-- The owner of a lock as ldlm_same_flock_owner compares it: the owner field
and the export. -/
def flockOwnerKey (lock : FlockLock) : UInt64 × Nat := (lock.owner, lock.lExport)

theorem ldlmSameFlockOwner_eq_true_iff {lock new : FlockLock} :
    ldlmSameFlockOwner lock new = true ↔ flockOwnerKey lock = flockOwnerKey new := by
  simp only [ldlmSameFlockOwner, flockOwnerKey, Bool.and_eq_true, decide_eq_true_eq, Prod.mk.injEq]
  exact ⟨fun ⟨owner, exp⟩ => ⟨owner.symm, exp.symm⟩, fun ⟨owner, exp⟩ => ⟨owner.symm, exp.symm⟩⟩

/-- The first byte of a lock. -/
def flockLo (lock : FlockLock) : Nat := lock.start.toNat

/-- The last byte of a lock. -/
def flockHi (lock : FlockLock) : Nat := lock.stop.toNat

@[simp] theorem flockHi_with_start (lock : FlockLock) (start : UInt64) :
    flockHi { lock with start := start } = flockHi lock := rfl

@[simp] theorem flockLo_with_stop (lock : FlockLock) (stop : UInt64) :
    flockLo { lock with stop := stop } = flockLo lock := rfl

/-- Two locks of one owner in the order of the queue: the first ends before the
second starts, and two of one mode leave a gap. -/
def FlockApart (a b : FlockLock) : Prop := Spans.Apart flockLo flockHi FlockLock.mode a b

/-- The mode in which an owner holds each byte of the resource. -/
def flockOwnerMode (granted : List FlockLock) (owner : UInt64 × Nat) (x : Nat) : Option LdlmMode :=
  Spans.valueAt flockLo flockHi FlockLock.mode (granted.filter fun lock => flockOwnerKey lock = owner) x

/-- A granted queue as the merge keeps it: every lock a range, and the locks of
each owner together, in order and apart. -/
structure FlockOrdered (granted : List FlockLock) : Prop where
  wellFormed : ∀ lock ∈ granted, flockLo lock ≤ flockHi lock
  contiguous : Contiguous flockOwnerKey granted
  sorted : ∀ owner, (granted.filter fun lock => flockOwnerKey lock = owner).Pairwise FlockApart

/-- Putting other locks of one owner in the place of its block of a granted
queue keeps the queue ordered when they are ordered among themselves. -/
theorem FlockOrdered.replace {pre mid mid' post : List FlockLock} {k : UInt64 × Nat}
    (ordered : FlockOrdered (pre ++ mid ++ post)) (outsidePre : ∀ a ∈ pre, flockOwnerKey a ≠ k)
    (inMid : ∀ a ∈ mid, flockOwnerKey a = k) (outsidePost : ∀ a ∈ post, flockOwnerKey a ≠ k)
    (closes : mid = [] → post = []) (inMid' : ∀ a ∈ mid', flockOwnerKey a = k)
    (wellFormed' : ∀ a ∈ mid', flockLo a ≤ flockHi a) (sorted' : mid'.Pairwise FlockApart) :
    FlockOrdered (pre ++ mid' ++ post) where
  wellFormed := by
    intro lock mem
    simp only [List.mem_append] at mem
    rcases mem with (inPre | inNew) | inPost
    · exact ordered.wellFormed lock (by simp [inPre])
    · exact wellFormed' lock inNew
    · exact ordered.wellFormed lock (by simp [inPost])
  contiguous := Contiguous.replace inMid inMid' outsidePost closes outsidePre ordered.contiguous
  sorted := by
    intro owner
    by_cases self : owner = k
    · subst self
      rw [filter_block_self outsidePre inMid' outsidePost]
      exact sorted'
    · rw [filter_block_other inMid' self]
      have sorted := ordered.sorted owner
      rwa [filter_block_other inMid self] at sorted

/-- A queue of one lock is ordered. -/
theorem FlockOrdered.singleton {lock : FlockLock} (wellFormed : flockLo lock ≤ flockHi lock) :
    FlockOrdered [lock] where
  wellFormed := by simpa using wellFormed
  contiguous := ⟨trivial, .inl (by simp)⟩
  sorted _ := (List.pairwise_singleton FlockApart lock).sublist List.filter_sublist

/-- What a request asks for in its range: its mode, or no lock for an unlock. -/
def flockRequested (req : FlockLock) : Option LdlmMode :=
  if req.mode = .nl then none else some req.mode

/-- The map an owner should have once the request is applied to its locks
`own`. -/
def flockTarget (req : FlockLock) (own : List FlockLock) (x : Nat) : Option LdlmMode :=
  if Spans.covers flockLo flockHi req x then flockRequested req
  else Spans.valueAt flockLo flockHi FlockLock.mode own x

/-! ## The invariant of the merge loop -/

/-- The state of the merge loop between two locks, for the request `req` on the
owner's locks `own`, which stand between `pre` and `post` in `lr_granted`.  The
loop has passed the locks `B`, which end before the lock `N` that `new` stands
for, and has the locks `C` still to come.  At every byte the owner must end
with the request's mode on `N` and the mode of `B` and `C` elsewhere. -/
structure MergeInv (req : FlockLock) (own pre post B C : List FlockLock) (N : FlockLock)
    (m : FlockMerge) (before rest : List FlockLock) : Prop where
  restEq : rest = C ++ post
  placed : (m.new = .req ∧ before = pre ++ B ∧ m.req = N) ∨
    (m.new = .lock (pre ++ B).length ∧ before = pre ++ B ++ [N])
  added : m.added = true ↔ (req.mode = .nl ∨ m.new ≠ .req)
  reqKey : flockOwnerKey m.req = flockOwnerKey req
  reqMode : m.req.mode = req.mode
  newKey : flockOwnerKey N = flockOwnerKey req
  newMode : N.mode = req.mode
  newRange : flockLo N ≤ flockHi N
  lockNotNl : m.new ≠ .req → req.mode ≠ .nl
  ownLocks : ∀ P ∈ B ++ C, flockOwnerKey P = flockOwnerKey req ∧ P.mode ≠ .nl ∧ flockLo P ≤ flockHi P
  postOther : ∀ P ∈ post, flockOwnerKey P ≠ flockOwnerKey req
  sorted : (B ++ C).Pairwise FlockApart
  beforeNew : ∀ P ∈ B, FlockApart P N
  mergedFirst : m.new ≠ .req → ∀ Q ∈ C, flockLo N ≤ flockLo Q
  map : ∀ x, flockTarget req own x = if Spans.covers flockLo flockHi N x then flockRequested req
    else Spans.valueAt flockLo flockHi FlockLock.mode (B ++ C) x

/-- How the merge loop may end from a state of the invariant: done, with the
locks after the stop starting after `N`, or stopped at a lock to split when no
second lock was given. -/
def MergeEnds (req : FlockLock) (own pre post : List FlockLock) (new2 : Option Nat) : FlockLoopEnd → Prop
  | .done m before rest => ∃ B C N, MergeInv req own pre post B C N m before rest ∧ ∀ Q ∈ C, FlockApart N Q
  | .restart m before rest => new2 = none ∧ m.new = .req ∧
      ∃ B C N, MergeInv req own pre post B C N m before rest ∧ C ≠ []

namespace MergeInv

variable {req : FlockLock} {own pre post B C C₁ : List FlockLock} {N L : FlockLock} {m : FlockMerge}
  {before rest : List FlockLock}

theorem newLock_eq (inv : MergeInv req own pre post B C N m before rest) : m.newLock before = N := by
  rcases inv.placed with ⟨isReq, -, reqEq⟩ | ⟨isLock, beforeEq⟩
  · simp [FlockMerge.newLock, isReq, reqEq]
  · simp [FlockMerge.newLock, isLock, beforeEq]

theorem withOverlaps (inv : MergeInv req own pre post B C N m before rest) (overlaps : Nat) :
    MergeInv req own pre post B C N { m with overlaps := overlaps } before rest :=
  { inv with }

/-- The next lock of the queue belongs to the owner exactly when the owner has
locks left. -/
theorem eq_cons_of_same {rest' : List FlockLock} (inv : MergeInv req own pre post B C N m before (L :: rest'))
    (same : flockOwnerKey L = flockOwnerKey req) : ∃ C₁, C = L :: C₁ ∧ rest' = C₁ ++ post := by
  have restEq := inv.restEq
  cases C with
  | nil =>
    have postEq : post = L :: rest' := by simpa using restEq.symm
    exact absurd same (inv.postOther L (by rw [postEq]; exact List.mem_cons_self))
  | cons L' C₁ =>
    simp only [List.cons_append, List.cons.injEq] at restEq
    exact ⟨C₁, by rw [restEq.1], restEq.2⟩

theorem eq_nil_of_other {rest' : List FlockLock} (inv : MergeInv req own pre post B C N m before (L :: rest'))
    (other : flockOwnerKey L ≠ flockOwnerKey req) : C = [] := by
  have restEq := inv.restEq
  cases C with
  | nil => rfl
  | cons L' C₁ =>
    simp only [List.cons_append, List.cons.injEq] at restEq
    exact absurd (inv.ownLocks L (by simp [restEq.1])).1 other

/-- The next lock is apart from the passed ones and from those after it. -/
theorem apart_head (inv : MergeInv req own pre post B (L :: C₁) N m before rest) :
    (∀ P ∈ B, FlockApart P L) ∧ ∀ Q ∈ C₁, FlockApart L Q :=
  (Spans.pairwise_append_cons.1 inv.sorted).2

theorem head_facts (inv : MergeInv req own pre post B (L :: C₁) N m before rest) :
    flockOwnerKey L = flockOwnerKey req ∧ L.mode ≠ .nl ∧ flockLo L ≤ flockHi L :=
  inv.ownLocks L (by simp)

/-- Only the request itself can stand before a lock that starts before it. -/
theorem new_eq_req_of_lt (inv : MergeInv req own pre post B (L :: C₁) N m before rest)
    (earlier : flockLo L < flockLo N) : m.new = .req := by
  by_contra merged
  have := inv.mergedFirst merged L (by simp)
  omega

/-- Passing over the next lock, or over a part of it with the same start that
agrees with it off `N`: the passed lock ends before `N`. -/
theorem pass (inv : MergeInv req own pre post B (L :: C₁) N m before rest) (isReq : m.new = .req)
    {L' : FlockLock} (sameLo : flockLo L' = flockLo L) (hiLe : flockHi L' ≤ flockHi L)
    (wellFormed : flockLo L' ≤ flockHi L') (sameMode : L'.mode = L.mode)
    (sameKey : flockOwnerKey L' = flockOwnerKey L) (apart : FlockApart L' N)
    (sameOff : ∀ x, Spans.covers flockLo flockHi N x = false →
      Spans.covers flockLo flockHi L x = Spans.covers flockLo flockHi L' x) :
    MergeInv req own pre post (B ++ [L']) C₁ N m (before ++ [L']) (C₁ ++ post) where
  restEq := rfl
  placed := by
    rcases inv.placed with ⟨-, beforeEq, reqEq⟩ | ⟨isLock, -⟩
    · exact .inl ⟨isReq, by rw [beforeEq, List.append_assoc], reqEq⟩
    · rw [isReq] at isLock
      cases isLock
  added := inv.added
  reqKey := inv.reqKey
  reqMode := inv.reqMode
  newKey := inv.newKey
  newMode := inv.newMode
  newRange := inv.newRange
  lockNotNl := inv.lockNotNl
  ownLocks := by
    intro P mem
    simp only [List.append_assoc, List.singleton_append, List.mem_append, List.mem_cons] at mem
    rcases mem with inB | rfl | inC
    · exact inv.ownLocks P (by simp [inB])
    · obtain ⟨key, notNl, -⟩ := inv.head_facts
      exact ⟨sameKey.trans key, sameMode ▸ notNl, wellFormed⟩
    · exact inv.ownLocks P (by simp [inC])
  postOther := inv.postOther
  sorted := by
    obtain ⟨others, afterB, beforeC⟩ := Spans.pairwise_append_cons.1 inv.sorted
    rw [List.append_assoc, List.singleton_append]
    refine Spans.pairwise_append_cons.2 ⟨others, fun P inB => ?_, fun Q inC => ?_⟩
    · exact (afterB P inB).mono le_rfl sameLo.ge rfl sameMode
    · exact (beforeC Q inC).mono hiLe le_rfl sameMode rfl
  beforeNew := by
    intro P mem
    rcases List.mem_append.1 mem with inB | isNew
    · exact inv.beforeNew P inB
    · rw [List.mem_singleton.1 isNew]
      exact apart
  mergedFirst := fun merged => absurd isReq merged
  map := by
    intro x
    rw [inv.map x]
    cases covered : Spans.covers flockLo flockHi N x
    · simp only [Bool.false_eq_true, if_false, List.append_assoc, List.singleton_append]
      exact Spans.valueAt_append_cons_congr B C₁ (sameOff x covered) sameMode.symm
    · rfl

/-- Dropping the next lock when `N` covers it. -/
theorem drop (inv : MergeInv req own pre post B (L :: C₁) N m before rest)
    (inside : flockLo N ≤ flockLo L ∧ flockHi L ≤ flockHi N) :
    MergeInv req own pre post B C₁ N m before (C₁ ++ post) where
  restEq := rfl
  placed := inv.placed
  added := inv.added
  reqKey := inv.reqKey
  reqMode := inv.reqMode
  newKey := inv.newKey
  newMode := inv.newMode
  newRange := inv.newRange
  lockNotNl := inv.lockNotNl
  ownLocks := fun P mem => inv.ownLocks P (((List.sublist_cons_self L C₁).append_left B).subset mem)
  postOther := inv.postOther
  sorted := inv.sorted.sublist ((List.sublist_cons_self L C₁).append_left B)
  beforeNew := inv.beforeNew
  mergedFirst := fun merged Q mem => inv.mergedFirst merged Q (List.mem_cons_of_mem L mem)
  map := by
    intro x
    rw [inv.map x]
    cases covered : Spans.covers flockLo flockHi N x
    · have outside : Spans.covers flockLo flockHi L x = false := by
        simp only [Spans.covers_eq_false] at covered ⊢
        omega
      simp only [Bool.false_eq_true, if_false]
      exact Spans.valueAt_append_cons_of_not_covers B C₁ outside
    · rfl

/-- Widening `N` over the next lock, of the request's mode, that overlaps or
touches it; the widened lock is the one `new` stands for from then on. -/
theorem merge (inv : MergeInv req own pre post B (L :: C₁) N m before rest) (sameMode : L.mode = req.mode)
    (touches : flockLo N ≤ flockHi L + 1 ∧ flockLo L ≤ flockHi N + 1) {N' : FlockLock}
    (loEq : flockLo N' = min (flockLo N) (flockLo L)) (hiEq : flockHi N' = max (flockHi N) (flockHi L))
    (newKey' : flockOwnerKey N' = flockOwnerKey req) (newMode' : N'.mode = req.mode) {m' : FlockMerge}
    (isLock : m'.new = .lock (pre ++ B).length) (added' : m'.added = true)
    (reqKey' : flockOwnerKey m'.req = flockOwnerKey req) (reqMode' : m'.req.mode = req.mode) :
    MergeInv req own pre post B C₁ N' m' (pre ++ B ++ [N']) (C₁ ++ post) where
  restEq := rfl
  placed := .inr ⟨isLock, rfl⟩
  added := by simp [added', isLock]
  reqKey := reqKey'
  reqMode := reqMode'
  newKey := newKey'
  newMode := newMode'
  newRange := by
    have := inv.newRange
    rw [loEq, hiEq]
    omega
  lockNotNl := fun _ => sameMode ▸ inv.head_facts.2.1
  ownLocks := fun P mem => inv.ownLocks P (((List.sublist_cons_self L C₁).append_left B).subset mem)
  postOther := inv.postOther
  sorted := inv.sorted.sublist ((List.sublist_cons_self L C₁).append_left B)
  beforeNew := by
    intro P inB
    have apartN := inv.beforeNew P inB
    have apartL := inv.apart_head.1 P inB
    refine ⟨?_, fun same => ?_⟩
    · have := apartN.1
      have := apartL.1
      rw [loEq]
      omega
    · have nearN := apartN.2 (same.trans (newMode'.trans inv.newMode.symm))
      have nearL := apartL.2 (same.trans (newMode'.trans sameMode.symm))
      rw [loEq]
      omega
  mergedFirst := by
    intro _ Q inC
    have := (inv.apart_head.2 Q inC).1
    have := inv.head_facts.2.2
    rw [loEq]
    omega
  map := by
    intro x
    rw [inv.map x, Spans.covers_hull loEq hiEq touches]
    cases coveredN : Spans.covers flockLo flockHi N x
    · cases coveredL : Spans.covers flockLo flockHi L x
      · simp only [Bool.or_false, Bool.false_eq_true, if_false]
        exact Spans.valueAt_append_cons_of_not_covers B C₁ coveredL
      · -- only `L` covers the byte, and it holds it in the request's mode
        have afterB : ∀ P ∈ B, flockHi P < x := by
          intro P inB
          have := (inv.apart_head.1 P inB).1
          simp only [Spans.covers_eq_true] at coveredL
          omega
        simp only [Bool.false_or, Bool.false_eq_true, ↓reduceIte]
        rw [Spans.valueAt_append_of_before afterB, Spans.valueAt_cons, if_pos coveredL, flockRequested,
          if_neg (sameMode ▸ inv.head_facts.2.1), sameMode]
    · simp only [Bool.true_or, ↓reduceIte]

/-- Putting in the place of the next lock a part of it that ends where it does
and agrees with it off `N`. -/
theorem replaceHead (inv : MergeInv req own pre post B (L :: C₁) N m before rest) {L' : FlockLock}
    (loLe : flockLo L ≤ flockLo L') (hiEq : flockHi L' = flockHi L) (wellFormed : flockLo L' ≤ flockHi L')
    (sameMode : L'.mode = L.mode) (sameKey : flockOwnerKey L' = flockOwnerKey L)
    (sameOff : ∀ x, Spans.covers flockLo flockHi N x = false →
      Spans.covers flockLo flockHi L x = Spans.covers flockLo flockHi L' x) :
    MergeInv req own pre post B (L' :: C₁) N m before (L' :: C₁ ++ post) where
  restEq := rfl
  placed := inv.placed
  added := inv.added
  reqKey := inv.reqKey
  reqMode := inv.reqMode
  newKey := inv.newKey
  newMode := inv.newMode
  newRange := inv.newRange
  lockNotNl := inv.lockNotNl
  ownLocks := by
    intro P mem
    simp only [List.mem_append, List.mem_cons] at mem
    rcases mem with inB | rfl | inC
    · exact inv.ownLocks P (by simp [inB])
    · obtain ⟨key, notNl, -⟩ := inv.head_facts
      exact ⟨sameKey.trans key, sameMode ▸ notNl, wellFormed⟩
    · exact inv.ownLocks P (by simp [inC])
  postOther := inv.postOther
  sorted := by
    obtain ⟨others, afterB, beforeC⟩ := Spans.pairwise_append_cons.1 inv.sorted
    refine Spans.pairwise_append_cons.2 ⟨others, fun P inB => ?_, fun Q inC => ?_⟩
    · exact (afterB P inB).mono le_rfl loLe rfl sameMode
    · exact (beforeC Q inC).mono hiEq.le le_rfl sameMode rfl
  beforeNew := inv.beforeNew
  mergedFirst := by
    intro merged Q mem
    rcases List.mem_cons.1 mem with rfl | inC
    · have := inv.mergedFirst merged L (by simp)
      omega
    · exact inv.mergedFirst merged Q (List.mem_cons_of_mem L inC)
  map := by
    intro x
    rw [inv.map x]
    cases covered : Spans.covers flockLo flockHi N x
    · simp only [Bool.false_eq_true, if_false]
      exact Spans.valueAt_append_cons_congr B C₁ (sameOff x covered) sameMode.symm
    · rfl

/-- A lock of another mode than the request's that ends before `N` is apart
from it. -/
theorem apart_of_before (inv : MergeInv req own pre post B C N m before rest) (otherMode : L.mode ≠ req.mode)
    (ends : flockHi L < flockLo N) : FlockApart L N :=
  ⟨ends, fun same => (otherMode (same.trans inv.newMode)).elim⟩

/-- A lock of another mode than the request's that starts after `N` is apart
from it. -/
theorem apart_of_after (inv : MergeInv req own pre post B C N m before rest) (otherMode : L.mode ≠ req.mode)
    (starts : flockHi N < flockLo L) : FlockApart N L :=
  ⟨starts, fun same => (otherMode (same.symm.trans inv.newMode)).elim⟩

/-- Where the loop stops at a lock that starts after `N`, every lock still to
come starts after `N`. -/
theorem stop (inv : MergeInv req own pre post B (L :: C₁) N m before rest) (after : FlockApart N L) :
    ∀ Q ∈ L :: C₁, FlockApart N Q := by
  intro Q mem
  rcases List.mem_cons.1 mem with rfl | inC
  · exact after
  · exact Spans.Apart.trans after (inv.apart_head.2 Q inC) inv.head_facts.2.2

/-- Splitting the next lock around `N`: its front is passed, its back stays
next. -/
theorem split (inv : MergeInv req own pre post B (L :: C₁) N m before rest) (isReq : m.new = .req)
    {L₂ L' : FlockLock} (lo₂ : flockLo L₂ = flockLo L) (hi₂ : flockHi L₂ + 1 = flockLo N)
    (lo' : flockLo L' = flockHi N + 1) (hi' : flockHi L' = flockHi L)
    (inside : flockLo L < flockLo N ∧ flockHi N < flockHi L) (mode₂ : L₂.mode = L.mode)
    (mode' : L'.mode = L.mode) (key₂ : flockOwnerKey L₂ = flockOwnerKey L)
    (key' : flockOwnerKey L' = flockOwnerKey L) (otherMode : L.mode ≠ req.mode) :
    MergeInv req own pre post (B ++ [L₂]) (L' :: C₁) N m (before ++ [L₂]) (L' :: C₁ ++ post) where
  restEq := rfl
  placed := by
    rcases inv.placed with ⟨-, beforeEq, reqEq⟩ | ⟨isLock, -⟩
    · exact .inl ⟨isReq, by rw [beforeEq, List.append_assoc], reqEq⟩
    · rw [isReq] at isLock
      cases isLock
  added := inv.added
  reqKey := inv.reqKey
  reqMode := inv.reqMode
  newKey := inv.newKey
  newMode := inv.newMode
  newRange := inv.newRange
  lockNotNl := inv.lockNotNl
  ownLocks := by
    intro P mem
    obtain ⟨key, notNl, wellFormed⟩ := inv.head_facts
    have newRange := inv.newRange
    simp only [List.append_assoc, List.singleton_append, List.mem_append, List.mem_cons] at mem
    rcases mem with inB | rfl | rfl | inC
    · exact inv.ownLocks P (by simp [inB])
    · exact ⟨key₂.trans key, mode₂ ▸ notNl, by omega⟩
    · exact ⟨key'.trans key, mode' ▸ notNl, by omega⟩
    · exact inv.ownLocks P (by simp [inC])
  postOther := inv.postOther
  sorted := by
    obtain ⟨others, afterB, beforeC⟩ := Spans.pairwise_append_cons.1 inv.sorted
    have newRange := inv.newRange
    -- the front and the back of the split lock are apart: `N` lies between
    have pieces : FlockApart L₂ L' := ⟨by omega, fun _ => by omega⟩
    rw [List.append_assoc, List.singleton_append]
    refine Spans.pairwise_append_cons.2 ⟨Spans.pairwise_append_cons.2 ⟨others, fun P inB => ?_,
      fun Q inC => ?_⟩, fun P inB => ?_, fun Q mem => ?_⟩
    · exact (afterB P inB).mono le_rfl (by omega) rfl mode'
    · exact (beforeC Q inC).mono hi'.le le_rfl mode' rfl
    · exact (afterB P inB).mono le_rfl lo₂.ge rfl mode₂
    · rcases List.mem_cons.1 mem with rfl | inC
      · exact pieces
      · exact (beforeC Q inC).mono (by omega) le_rfl mode₂ rfl
  beforeNew := by
    intro P mem
    rcases List.mem_append.1 mem with inB | isFront
    · exact inv.beforeNew P inB
    · rw [List.mem_singleton.1 isFront]
      exact ⟨by omega, fun same => absurd (mode₂ ▸ same.trans inv.newMode) otherMode⟩
  mergedFirst := fun merged => absurd isReq merged
  map := by
    intro x
    rw [inv.map x]
    cases covered : Spans.covers flockLo flockHi N x
    · -- off `N` the two pieces cover what the split lock covered
      have pieces : Spans.covers flockLo flockHi L x =
          (Spans.covers flockLo flockHi L₂ x || Spans.covers flockLo flockHi L' x) := by
        have newRange := inv.newRange
        rw [Bool.eq_iff_iff]
        simp only [Spans.covers_eq_false] at covered
        simp only [Spans.covers_eq_true, Bool.or_eq_true]
        omega
      simp only [Bool.false_eq_true, if_false, List.append_assoc, List.singleton_append]
      rw [Spans.valueAt_append, Spans.valueAt_append, Spans.valueAt_cons, Spans.valueAt_cons,
        Spans.valueAt_cons, pieces, mode₂, mode']
      cases Spans.covers flockLo flockHi L₂ x <;> rfl
    · rfl

/-- The loop's test of the owner compares with the request's owner. -/
theorem sameOwner_iff (inv : MergeInv req own pre post B C N m before rest) :
    ldlmSameFlockOwner L (m.newLock before) = true ↔ flockOwnerKey L = flockOwnerKey req := by
  rw [ldlmSameFlockOwner_eq_true_iff, inv.newLock_eq, inv.newKey]

/-- The next lock belongs to the owner when the loop does not stop at it. -/
theorem key_of_same (inv : MergeInv req own pre post B C N m before rest)
    (same : ¬(!ldlmSameFlockOwner L (m.newLock before)) = true) : flockOwnerKey L = flockOwnerKey req := by
  rw [Bool.not_eq_true, Bool.not_eq_false'] at same
  exact inv.sameOwner_iff.1 same

end MergeInv

/-! ## The merge loop -/

/-- The loop merges a lock of the request's mode that neither ends a gap
before `new` nor starts one after it: the two overlap or touch. -/
theorem flockTouches {new lock : FlockLock} (noSkip : ¬(new.start > lock.stop + 1 ∧ lock.stop ≠ obdObjectEof))
    (noGap : ¬(new.stop < lock.start - 1 ∧ lock.start ≠ 0)) :
    flockLo new ≤ flockHi lock + 1 ∧ flockLo lock ≤ flockHi new + 1 := by
  have noSkip := mt UInt64.add_one_lt_and_ne_iff.2 noSkip
  have noGap := mt UInt64.lt_sub_one_and_ne_iff.2 noGap
  unfold flockLo flockHi
  omega

section Loop

variable {req : FlockLock} {own pre post : List FlockLock}

/-- From every state of the invariant the merge loop ends done, with the
locks left after `N`, or stops at a lock to split when it has no second lock.
The induction follows the loop, one case for each way a round goes. -/
theorem flockMergeLoop_ends (new2 : Option Nat) (m : FlockMerge) (before rest : List FlockLock) :
    ∀ B C N, MergeInv req own pre post B C N m before rest →
      MergeEnds req own pre post new2 (flockMergeLoop req.mode new2 m before rest) := by
  fun_induction flockMergeLoop req.mode new2 m before rest with
  | case1 m before =>
    intro B C N inv
    have noneLeft : C = [] := (List.append_eq_nil_iff.1 inv.restEq.symm).1
    exact ⟨B, C, N, inv, by simp [noneLeft]⟩
  | case2 m before lock rest new other =>
    intro B C N inv
    have otherKey : flockOwnerKey lock ≠ flockOwnerKey req := fun same => by
      have sameOwner : ldlmSameFlockOwner lock new = true := inv.sameOwner_iff.2 same
      simp [sameOwner] at other
    exact ⟨B, C, N, inv, by simp [inv.eq_nil_of_other otherKey]⟩
  | case3 m before lock rest new same sameMode skip ih =>
    intro B C N inv
    obtain ⟨C₁, rfl, rfl⟩ := inv.eq_cons_of_same (inv.key_of_same same)
    have gap : flockHi lock + 1 < flockLo N := by
      rw [← inv.newLock_eq]
      exact UInt64.add_one_lt_and_ne_iff.1 skip
    have isReq := inv.new_eq_req_of_lt (by have := inv.head_facts.2.2; omega)
    exact ih _ _ _ (inv.pass isReq rfl le_rfl inv.head_facts.2.2 rfl rfl ⟨by omega, fun _ => gap⟩
      fun _ _ => rfl)
  | case4 m before lock rest new same sameMode noSkip gap =>
    intro B C N inv
    obtain ⟨C₁, rfl, rfl⟩ := inv.eq_cons_of_same (inv.key_of_same same)
    have gap : flockHi N + 1 < flockLo lock := by
      rw [← inv.newLock_eq]
      exact UInt64.lt_sub_one_and_ne_iff.1 gap
    exact ⟨B, lock :: C₁, N, inv, inv.stop ⟨by omega, fun _ => gap⟩⟩
  | case5 m before lock rest new same sameMode noSkip noGap start stop added m' before' setNew ih =>
    intro B C N inv
    obtain ⟨C₁, rfl, rfl⟩ := inv.eq_cons_of_same (inv.key_of_same same)
    have newEq : new = N := inv.newLock_eq
    have touches := flockTouches noSkip noGap
    rw [newEq] at touches
    -- an added request of a granted lock's mode is a lock already merged into
    have merged : m.new ≠ .req := by
      rcases inv.added.1 added with isNl | merged
      · exact absurd (sameMode.trans isNl) inv.head_facts.2.1
      · exact merged
    obtain ⟨isLock, beforeEq⟩ := inv.placed.resolve_left fun ⟨isReq, _⟩ => merged isReq
    simp only [FlockMerge.setNew, isLock, beforeEq, Spans.modify_length_append_singleton,
      Prod.mk.injEq] at setNew
    obtain ⟨rfl, rfl⟩ := setNew
    apply ih
    refine inv.merge sameMode touches ?_ ?_ ?_ ?_ isLock added inv.reqKey inv.reqMode
    · simp only [flockLo, start, UInt64.toNat_ite_lt, newEq]
    · simp only [flockHi, stop, UInt64.toNat_ite_gt, newEq]
    · exact inv.newKey
    · exact inv.newMode
  | case6 m before lock rest new same sameMode noSkip noGap start stop notAdded ih =>
    intro B C N inv
    obtain ⟨C₁, rfl, rfl⟩ := inv.eq_cons_of_same (inv.key_of_same same)
    have newEq : new = N := inv.newLock_eq
    have touches := flockTouches noSkip noGap
    rw [newEq] at touches
    -- a request not yet added is the lock `new` stands for
    have isReq : m.new = .req := by
      by_contra merged
      exact notAdded (inv.added.2 (.inr merged))
    obtain ⟨-, beforeEq, -⟩ := inv.placed.resolve_right fun ⟨isLock, _⟩ => by
      rw [isReq] at isLock
      cases isLock
    apply ih
    rw [beforeEq]
    refine inv.merge sameMode touches ?_ ?_ ?_ ?_ ?_ ?_ ?_ ?_
    · simp only [flockLo, start, UInt64.toNat_ite_lt, newEq]
    · simp only [flockHi, stop, UInt64.toNat_ite_gt, newEq]
    · exact inv.head_facts.1
    · exact sameMode
    · rfl
    · rfl
    · simpa [FlockMerge.setNew, isReq, flockOwnerKey] using inv.reqKey
    · simpa [FlockMerge.setNew, isReq] using inv.reqMode
  | case7 m before lock rest new same otherMode skip ih =>
    intro B C N inv
    obtain ⟨C₁, rfl, rfl⟩ := inv.eq_cons_of_same (inv.key_of_same same)
    have gap : flockHi lock < flockLo N := by
      rw [← inv.newLock_eq]
      exact UInt64.lt_iff_toNat_lt.1 skip
    have isReq := inv.new_eq_req_of_lt (by have := inv.head_facts.2.2; omega)
    exact ih _ _ _ (inv.pass isReq rfl le_rfl inv.head_facts.2.2 rfl rfl (inv.apart_of_before otherMode gap)
      fun _ _ => rfl)
  | case8 m before lock rest new same otherMode noSkip gap =>
    intro B C N inv
    obtain ⟨C₁, rfl, rfl⟩ := inv.eq_cons_of_same (inv.key_of_same same)
    have gap : flockHi N < flockLo lock := by
      rw [← inv.newLock_eq]
      exact UInt64.lt_iff_toNat_lt.1 gap
    exact ⟨B, lock :: C₁, N, inv, inv.stop (inv.apart_of_after otherMode gap)⟩
  | case9 m₀ before lock rest new same otherMode noSkip noGap m startsIn endsIn =>
    -- the request covers the front of the lock: what is left starts after it
    intro B C N inv
    obtain ⟨C₁, rfl, rfl⟩ := inv.eq_cons_of_same (inv.key_of_same same)
    have newEq : new = N := inv.newLock_eq
    subst newEq
    have reaches : flockLo lock ≤ flockHi new := Nat.not_lt.1 (mt UInt64.lt_iff_toNat_lt.2 noGap)
    have startsIn : flockLo new ≤ flockLo lock := UInt64.le_iff_toNat_le.1 startsIn
    have cut : flockLo { lock with start := new.stop + 1 } = flockHi new + 1 :=
      UInt64.toNat_add_one_of_lt endsIn
    have endsIn : flockHi new < flockHi lock := UInt64.lt_iff_toNat_lt.1 endsIn
    have sameEnd := flockHi_with_start lock (new.stop + 1)
    have trimmed := (inv.withOverlaps (m₀.overlaps + 1)).replaceHead
      (show flockLo lock ≤ flockLo { lock with start := new.stop + 1 } by omega) sameEnd (by omega) rfl rfl
      fun x outside => by
        rw [Spans.covers_eq_false] at outside
        rw [Bool.eq_iff_iff, Spans.covers_eq_true, Spans.covers_eq_true, cut, sameEnd]
        omega
    exact ⟨B, _, new, trimmed, trimmed.stop (inv.apart_of_after otherMode (by omega))⟩
  | case10 m₀ before lock rest new same otherMode noSkip noGap m startsIn coversEnd ih =>
    -- the request covers the whole lock, which goes
    intro B C N inv
    obtain ⟨C₁, rfl, rfl⟩ := inv.eq_cons_of_same (inv.key_of_same same)
    have newEq : new = N := inv.newLock_eq
    subst newEq
    have startsIn : flockLo new ≤ flockLo lock := UInt64.le_iff_toNat_le.1 startsIn
    have coversEnd : flockHi lock ≤ flockHi new := Nat.not_lt.1 (mt UInt64.lt_iff_toNat_lt.2 coversEnd)
    exact ih B C₁ new ((inv.withOverlaps (m₀.overlaps + 1)).drop ⟨startsIn, coversEnd⟩)
  | case11 m₀ before lock rest new same otherMode noSkip noGap m startsAfter coversEnd ih =>
    -- the request covers the back of the lock: what is left ends before it
    intro B C N inv
    obtain ⟨C₁, rfl, rfl⟩ := inv.eq_cons_of_same (inv.key_of_same same)
    have newEq : new = N := inv.newLock_eq
    subst newEq
    have reaches : flockLo new ≤ flockHi lock := Nat.not_lt.1 (mt UInt64.lt_iff_toNat_lt.2 noSkip)
    have startsAfter : flockLo lock < flockLo new := Nat.not_le.1 (mt UInt64.le_iff_toNat_le.2 startsAfter)
    have cut : flockHi { lock with stop := new.start - 1 } = flockLo new - 1 :=
      UInt64.toNat_sub_one_of_lt (UInt64.lt_iff_toNat_lt.2 startsAfter)
    have coversEnd : flockHi lock ≤ flockHi new := UInt64.le_iff_toNat_le.1 coversEnd
    have isReq := inv.new_eq_req_of_lt startsAfter
    have sameStart := flockLo_with_stop lock (new.start - 1)
    refine ih _ _ _ ((inv.withOverlaps (m₀.overlaps + 1)).pass isReq sameStart (by omega) (by omega) rfl rfl
      (inv.apart_of_before otherMode (by omega)) fun x outside => ?_)
    rw [Spans.covers_eq_false] at outside
    rw [Bool.eq_iff_iff, Spans.covers_eq_true, Spans.covers_eq_true, cut, sameStart]
    omega
  | case12 m₀ before lock rest new same otherMode noSkip noGap m startsAfter endsInside noSecond =>
    -- the lock holds the request inside, and there is no second lock yet
    intro B C N inv
    obtain ⟨C₁, rfl, rfl⟩ := inv.eq_cons_of_same (inv.key_of_same same)
    have newEq : new = N := inv.newLock_eq
    subst newEq
    have startsAfter : flockLo lock < flockLo new := Nat.not_le.1 (mt UInt64.le_iff_toNat_le.2 startsAfter)
    exact ⟨noSecond, inv.new_eq_req_of_lt startsAfter, B, lock :: C₁, new,
      inv.withOverlaps (m₀.overlaps + 1), List.cons_ne_nil _ _⟩
  | case13 m₀ before lock rest new same otherMode noSkip noGap m startsAfter endsInside handle second =>
    -- the lock holds the request inside: its front becomes the second lock
    intro B C N inv
    have key := inv.key_of_same same
    obtain ⟨C₁, rfl, rfl⟩ := inv.eq_cons_of_same key
    have newEq : new = N := inv.newLock_eq
    subst newEq
    have startsAfter : flockLo lock < flockLo new := Nat.not_le.1 (mt UInt64.le_iff_toNat_le.2 startsAfter)
    have endsInside : flockHi new < flockHi lock := Nat.not_le.1 (mt UInt64.le_iff_toNat_le.2 endsInside)
    have front : (new.start - 1).toNat + 1 = flockLo new := by
      rw [UInt64.toNat_sub_one_of_lt (UInt64.lt_iff_toNat_lt.2 startsAfter)]
      unfold flockLo at startsAfter ⊢
      omega
    have back : flockLo { lock with start := new.stop + 1 } = flockHi new + 1 :=
      UInt64.toNat_add_one_of_lt (UInt64.lt_iff_toNat_lt.2 endsInside)
    have owner : new.owner = lock.owner := congrArg Prod.fst (inv.newKey.trans key.symm)
    have sameStart : flockLo ⟨handle, lock.lExport, new.owner, lock.mode, lock.start, new.start - 1⟩ =
        flockLo lock := rfl
    have pieces := (inv.withOverlaps (m₀.overlaps + 1)).split (inv.new_eq_req_of_lt startsAfter) sameStart front
      back rfl ⟨startsAfter, endsInside⟩ rfl rfl (by rw [flockOwnerKey, flockOwnerKey, owner]) rfl otherMode
    exact ⟨_, _, new, pieces, pieces.stop (inv.apart_of_after otherMode (by omega))⟩

end Loop

/-! ## Where the loop ends -/

/-- The owner's locks once the loop is done: those it passed and those left,
with the request's lock between them unless the request unlocks. -/
def flockMergedLocks (req : FlockLock) (B C : List FlockLock) (N : FlockLock) : List FlockLock :=
  if req.mode = .nl then B ++ C else B ++ N :: C

/-- Locks an owner may hold in place of `own` once `req` is applied: its own,
in order and apart, holding at every byte what `flockTarget` says. -/
structure FlockMergedOwn (req : FlockLock) (own own' : List FlockLock) : Prop where
  key : ∀ P ∈ own', flockOwnerKey P = flockOwnerKey req
  wellFormed : ∀ P ∈ own', flockLo P ≤ flockHi P
  sorted : own'.Pairwise FlockApart
  map : ∀ x, Spans.valueAt flockLo flockHi FlockLock.mode own' x = flockTarget req own x

namespace MergeInv

variable {req : FlockLock} {own pre post B C : List FlockLock} {N : FlockLock} {m : FlockMerge}
  {before rest : List FlockLock}

/-- The queue flockGrant leaves: the owner's block replaced by the merged
locks. -/
theorem granted_eq (inv : MergeInv req own pre post B C N m before rest) :
    (if m.added then before ++ rest else before ++ m.req :: rest) =
      pre ++ flockMergedLocks req B C N ++ post := by
  rw [inv.restEq]
  rcases inv.placed with ⟨isReq, beforeEq, reqEq⟩ | ⟨isLock, beforeEq⟩
  · by_cases unlock : req.mode = .nl
    · have added : m.added = true := inv.added.2 (.inl unlock)
      simp [added, beforeEq, flockMergedLocks, unlock]
    · have notAdded : m.added = false := by simpa [isReq, unlock] using mt inv.added.1
      simp [notAdded, beforeEq, reqEq, flockMergedLocks, unlock]
  · have merged : m.new ≠ .req := by simp [isLock]
    have added : m.added = true := inv.added.2 (.inr merged)
    simp [added, beforeEq, flockMergedLocks, inv.lockNotNl merged]

theorem mem_merged (inv : MergeInv req own pre post B C N m before rest) :
    ∀ P ∈ flockMergedLocks req B C N, flockOwnerKey P = flockOwnerKey req ∧ flockLo P ≤ flockHi P := by
  intro P mem
  have ofOwn : P ∈ B ++ C → flockOwnerKey P = flockOwnerKey req ∧ flockLo P ≤ flockHi P :=
    fun inOwn => ⟨(inv.ownLocks P inOwn).1, (inv.ownLocks P inOwn).2.2⟩
  unfold flockMergedLocks at mem
  split_ifs at mem
  · exact ofOwn mem
  · simp only [List.mem_append, List.mem_cons] at mem
    rcases mem with inB | rfl | inC
    · exact ofOwn (List.mem_append_left C inB)
    · exact ⟨inv.newKey, inv.newRange⟩
    · exact ofOwn (List.mem_append_right B inC)

/-- Once the locks left start after `N`, the merged locks are what the owner
should hold. -/
theorem merged (inv : MergeInv req own pre post B C N m before rest) (afterN : ∀ Q ∈ C, FlockApart N Q) :
    FlockMergedOwn req own (flockMergedLocks req B C N) where
  key P mem := (inv.mem_merged P mem).1
  wellFormed P mem := (inv.mem_merged P mem).2
  sorted := by
    unfold flockMergedLocks
    split_ifs
    · exact inv.sorted
    · exact Spans.pairwise_append_cons.2 ⟨inv.sorted, inv.beforeNew, afterN⟩
  map := by
    intro x
    rw [inv.map x]
    cases covered : Spans.covers flockLo flockHi N x
    · -- off `N` the merged locks hold what those passed and left hold
      simp only [Bool.false_eq_true, if_false, flockMergedLocks]
      split_ifs
      · rfl
      · exact Spans.valueAt_append_cons_of_not_covers B C covered
    · -- on `N` the locks passed end before it and those left start after it
      have afterB : ∀ P ∈ B, flockHi P < x := by
        intro P inB
        have := (inv.beforeNew P inB).1
        simp only [Spans.covers_eq_true] at covered
        omega
      simp only [↓reduceIte, flockMergedLocks]
      split_ifs with unlock
      · rw [Spans.valueAt_append_of_before afterB, Spans.valueAt_eq_none fun Q inC => ?_, flockRequested,
          if_pos unlock]
        have := (afterN Q inC).1
        simp only [Spans.covers_eq_true] at covered
        simp only [Spans.covers_eq_false]
        omega
      · rw [Spans.valueAt_append_of_before afterB, Spans.valueAt_cons, covered, if_pos rfl, flockRequested,
          if_neg unlock, inv.newMode]

/-- A second pass that looks for the owner's locks again starts before those
the first pass had passed. -/
theorem rescan (inv : MergeInv req own pre post B C N m before rest) (isReq : m.new = .req) :
    MergeInv req own pre post [] (B ++ C) N m pre (B ++ C ++ post) where
  restEq := rfl
  placed := by
    obtain ⟨-, -, reqEq⟩ := inv.placed.resolve_right fun ⟨isLock, _⟩ => by simp [isReq] at isLock
    exact .inl ⟨isReq, (List.append_nil pre).symm, reqEq⟩
  added := inv.added
  reqKey := inv.reqKey
  reqMode := inv.reqMode
  newKey := inv.newKey
  newMode := inv.newMode
  newRange := inv.newRange
  lockNotNl := inv.lockNotNl
  ownLocks := by simpa using inv.ownLocks
  postOther := inv.postOther
  sorted := by simpa using inv.sorted
  beforeNew := by simp
  mergedFirst := fun merged => absurd isReq merged
  map := by simpa using inv.map

end MergeInv

/-- The loop's first state: nothing passed, the request as `new`, and the
owner's block still to come. -/
theorem mergeInv_start {req : FlockLock} {pre mid post : List FlockLock}
    (inMid : ∀ P ∈ mid, flockOwnerKey P = flockOwnerKey req) (noNl : ∀ P ∈ mid, P.mode ≠ .nl)
    (wellFormed : ∀ P ∈ mid, flockLo P ≤ flockHi P) (sorted : mid.Pairwise FlockApart)
    (outsidePost : ∀ P ∈ post, flockOwnerKey P ≠ flockOwnerKey req) (range : flockLo req ≤ flockHi req) :
    MergeInv req mid pre post [] mid req ⟨req, .req, req.mode = .nl, 0⟩ pre (mid ++ post) where
  restEq := rfl
  placed := .inl ⟨rfl, (List.append_nil pre).symm, rfl⟩
  added := by simp
  reqKey := rfl
  reqMode := rfl
  newKey := rfl
  newMode := rfl
  newRange := range
  lockNotNl := fun merged => absurd rfl merged
  ownLocks P mem := ⟨inMid P (by simpa using mem), noNl P (by simpa using mem), wellFormed P (by simpa using mem)⟩
  postOther := outsidePost
  sorted := by simpa using sorted
  beforeNew := by simp
  mergedFirst := fun merged => absurd rfl merged
  map := by simp [flockTarget]

/-! ## The passes of ldlm_process_flock_lock -/

theorem ldlmSameFlockOwner_eq_decide (lock req : FlockLock) :
    ldlmSameFlockOwner lock req = decide (flockOwnerKey lock = flockOwnerKey req) := by
  rw [Bool.eq_iff_iff, ldlmSameFlockOwner_eq_true_iff, decide_eq_true_iff]

/-- `ownlocks` is at the first lock of the owner's block. -/
theorem ownlocksSplit_block {pre rest : List FlockLock} {req : FlockLock}
    (outsidePre : ∀ P ∈ pre, flockOwnerKey P ≠ flockOwnerKey req)
    (startsIn : ∀ P, rest.head? = some P → flockOwnerKey P = flockOwnerKey req) :
    ownlocksSplit (pre ++ rest) req = (pre, rest) := by
  have passPre : ∀ P ∈ pre, (!ldlmSameFlockOwner P req) = true := by
    simpa [ldlmSameFlockOwner_eq_decide] using outsidePre
  rw [ownlocksSplit, List.takeWhile_append_of_pos passPre, List.dropWhile_append_of_pos passPre]
  cases rest with
  | nil => simp
  | cons P rest => simp [ldlmSameFlockOwner_eq_decide, startsIn P rfl]

theorem flockGrant_lrGranted {server server' : FlockServer} {name : Nat} {m : FlockMerge}
    {before rest : List FlockLock} (grant : flockGrant server name m before rest = some server') :
    (server'.resources name).lrGranted = if m.added then before ++ rest else before ++ m.req :: rest := by
  unfold flockGrant at grant
  dsimp only at grant
  split_ifs at grant with added <;> cases grant <;> simp [FlockServer.setResource, added]

section Passes

variable {fuel : Nat} {server server' : FlockServer} {name : Nat} {flags : UInt64} {firstEnq : Bool}
  {m m' : FlockMerge} {new2 : Option Nat} {before rest : List FlockLock} {overlaps : Nat}

/-- A merge pass that grants ran the loop to its end and put its locks in
`lr_granted`. -/
theorem flockMergePass_granted {ownlocks : List FlockLock × List FlockLock}
    (pass : flockMergePass server name flags m new2 ownlocks = some (.finished server' .granted overlaps)) :
    ∃ m' before rest, flockMergeLoop m.req.mode new2 m ownlocks.1 ownlocks.2 = .done m' before rest ∧
      (server'.resources name).lrGranted = if m'.added then before ++ rest else before ++ m'.req :: rest := by
  unfold flockMergePass at pass
  split_ifs at pass
  · obtain ⟨_, -, ended⟩ := Option.map_eq_some_iff.1 pass
    cases ended
  · split at pass
    · cases pass
    · rename_i m' before rest done
      obtain ⟨_, grant, ended⟩ := Option.map_eq_some_iff.1 pass
      cases ended
      exact ⟨m', before, rest, done, flockGrant_lrGranted grant⟩

/-- A merge pass that stops to split a lock leaves in `lr_granted` the locks
as the loop left them. -/
theorem flockMergePass_restart {ownlocks : List FlockLock × List FlockLock}
    (pass : flockMergePass server name flags m new2 ownlocks = some (.restart server' m' before rest)) :
    flockMergeLoop m.req.mode new2 m ownlocks.1 ownlocks.2 = .restart m' before rest ∧
      (server'.resources name).lrGranted = before ++ rest := by
  unfold flockMergePass at pass
  split_ifs at pass
  · obtain ⟨_, -, ended⟩ := Option.map_eq_some_iff.1 pass
    cases ended
  · split at pass
    · rename_i stopped
      cases pass
      exact ⟨stopped, by simp [FlockServer.setResource]⟩
    · obtain ⟨_, -, ended⟩ := Option.map_eq_some_iff.1 pass
      cases ended

/-- A pass that grants or stops to split a lock got to the merge, from the
owner's first lock or from where the last pass stopped. -/
theorem flockPass_merge {ownlocks : Option (List FlockLock × List FlockLock)} {e : FlockPassEnd}
    (pass : flockPass fuel server name flags firstEnq m new2 ownlocks = some e)
    (merges : ∀ s outcome overlaps, e = .finished s outcome overlaps → outcome = .granted) :
    flockMergePass server name flags m new2
      (if flags = ldlmFlWaitNoreproc ∨ m.req.mode = .nl then ownlocksSplit (server.resources name).lrGranted m.req
        else ownlocks.getD (ownlocksSplit (server.resources name).lrGranted m.req)) = some e := by
  unfold flockPass at pass
  dsimp only at pass
  by_cases noreproc : flags = ldlmFlWaitNoreproc ∨ m.req.mode = .nl
  · rw [if_pos noreproc] at pass ⊢
    exact pass
  rw [if_neg noreproc] at pass ⊢
  -- every other way out of the pass has an outcome of its own
  cases firstEnq
  · simp only [Bool.false_eq_true, ↓reduceIte] at pass
    obtain ⟨found, -, ended⟩ := Option.bind_eq_some_iff.1 pass
    cases found with
    | some lock =>
      cases ended
      cases merges _ _ _ rfl
    | none =>
      dsimp only at ended
      split_ifs at ended
      · exact ended
      · cases ended
        cases merges _ _ _ rfl
  · simp only [↓reduceIte] at pass
    split at pass
    · exact pass
    · split_ifs at pass
      · obtain ⟨_, -, rfl⟩ := Option.map_eq_some_iff.1 pass
        cases merges _ _ _ rfl
      · obtain ⟨_, -, rfl⟩ := Option.map_eq_some_iff.1 pass
        cases merges _ _ _ rfl
      · obtain ⟨_, -, ended⟩ := Option.bind_eq_some_iff.1 pass
        split at ended
        · obtain ⟨_, -, rfl⟩ := Option.map_eq_some_iff.1 ended
          cases merges _ _ _ rfl
        · cases ended
          cases merges _ _ _ rfl
        · cases ended

/-- A merge pass from a state of the invariant that grants leaves the owner's
block replaced by locks it may hold. -/
theorem flockMergePass_granted_of_inv {req : FlockLock} {own pre post B C : List FlockLock} {N : FlockLock}
    (inv : MergeInv req own pre post B C N m before rest)
    (pass : flockMergePass server name flags m new2 (before, rest) = some (.finished server' .granted overlaps)) :
    ∃ own', (server'.resources name).lrGranted = pre ++ own' ++ post ∧ FlockMergedOwn req own own' := by
  obtain ⟨m', before', rest', done, granted⟩ := flockMergePass_granted pass
  rw [inv.reqMode] at done
  have ends := flockMergeLoop_ends new2 m before rest B C N inv
  rw [done] at ends
  obtain ⟨B', C', N', inv', afterN⟩ := ends
  exact ⟨_, granted.trans inv'.granted_eq, inv'.merged afterN⟩

end Passes

/-- A second pass that looks for the owner's locks again finds them where the
locks the first pass passed begin. -/
theorem MergeInv.ownlocksSplit_rescan {req : FlockLock} {own pre post B C : List FlockLock} {N : FlockLock}
    {m : FlockMerge} {before rest : List FlockLock} (inv : MergeInv req own pre post B C N m before rest)
    (isReq : m.new = .req) (left : C ≠ []) (outsidePre : ∀ P ∈ pre, flockOwnerKey P ≠ flockOwnerKey req) :
    ownlocksSplit (before ++ rest) m.req = (pre, B ++ C ++ post) := by
  obtain ⟨-, beforeEq, -⟩ := inv.placed.resolve_right fun ⟨isLock, _⟩ => by simp [isReq] at isLock
  rw [beforeEq, inv.restEq, List.append_assoc, ← List.append_assoc B]
  refine ownlocksSplit_block (by rwa [inv.reqKey]) fun P head => ?_
  rw [inv.reqKey]
  obtain ⟨Q, C₁, rfl⟩ := List.exists_cons_of_ne_nil left
  cases B with
  | nil =>
    simp only [List.nil_append, List.cons_append, List.head?_cons, Option.some.injEq] at head
    exact head ▸ (inv.ownLocks Q (by simp)).1
  | cons P' B =>
    simp only [List.cons_append, List.head?_cons, Option.some.injEq] at head
    exact head ▸ (inv.ownLocks P' (by simp)).1

/-- The granted queue after a merge that replaced the owner's block by locks
it may hold: the owner's map updated on the request's range, the other owners
untouched, and the queue ordered. -/
theorem flockGranted_of_merged {granted granted' pre mid post own' : List FlockLock} {req : FlockLock}
    (ordered : FlockOrdered granted) (split : granted = pre ++ mid ++ post)
    (outsidePre : ∀ P ∈ pre, flockOwnerKey P ≠ flockOwnerKey req)
    (inMid : ∀ P ∈ mid, flockOwnerKey P = flockOwnerKey req)
    (outsidePost : ∀ P ∈ post, flockOwnerKey P ≠ flockOwnerKey req) (closes : mid = [] → post = [])
    (grantedEq : granted' = pre ++ own' ++ post) (merged : FlockMergedOwn req mid own') :
    (∀ x, flockOwnerMode granted' (flockOwnerKey req) x =
      if req.start.toNat ≤ x ∧ x ≤ req.stop.toNat then flockRequested req
      else flockOwnerMode granted (flockOwnerKey req) x) ∧
    (∀ owner ≠ flockOwnerKey req, granted'.filter (fun lock => flockOwnerKey lock = owner) =
      granted.filter (fun lock => flockOwnerKey lock = owner)) ∧
    FlockOrdered granted' := by
  subst split grantedEq
  refine ⟨fun x => ?_, fun owner other => ?_, ?_⟩
  · rw [flockOwnerMode, flockOwnerMode, filter_block_self outsidePre merged.key outsidePost,
      filter_block_self outsidePre inMid outsidePost, merged.map x, flockTarget]
    simp only [Spans.covers_eq_true, flockLo, flockHi]
  · rw [filter_block_other merged.key other, filter_block_other inMid other]
  · exact ordered.replace outsidePre inMid outsidePost closes merged.key merged.wellFormed merged.sorted

/-- When ldlm_process_flock_lock grants a request, before it reprocesses the
waiting queue, the owner holds the request's mode on its range (nothing for
an unlock) and what it held elsewhere, the other owners keep their locks, and
the granted queue stays ordered. -/
theorem ldlmProcessFlockLockCore_granted_map {fuel : Nat} {server server' : FlockServer} {name : Nat}
    {req : FlockLock} {flags : UInt64} {firstEnq : Bool} {overlaps : Nat}
    (ordered : FlockOrdered (server.resources name).lrGranted)
    (noNl : ∀ lock ∈ (server.resources name).lrGranted, flockOwnerKey lock = flockOwnerKey req → lock.mode ≠ .nl)
    (range : req.start ≤ req.stop)
    (grants : ldlmProcessFlockLockCore fuel server name req flags firstEnq = some (server', .granted, overlaps)) :
    (∀ x, flockOwnerMode (server'.resources name).lrGranted (flockOwnerKey req) x =
      if req.start.toNat ≤ x ∧ x ≤ req.stop.toNat then flockRequested req
      else flockOwnerMode (server.resources name).lrGranted (flockOwnerKey req) x) ∧
    (∀ owner ≠ flockOwnerKey req,
      (server'.resources name).lrGranted.filter (fun lock => flockOwnerKey lock = owner) =
        (server.resources name).lrGranted.filter (fun lock => flockOwnerKey lock = owner)) ∧
    FlockOrdered (server'.resources name).lrGranted := by
  -- the owner's block in the queue, and the loop's first state on it
  obtain ⟨mid, post, dropEq, inMid, outsidePost, closes⟩ :=
    ordered.contiguous.exists_block (flockOwnerKey req)
  set pre := (server.resources name).lrGranted.takeWhile fun lock => !decide (flockOwnerKey lock = flockOwnerKey req)
  have outsidePre : ∀ P ∈ pre, flockOwnerKey P ≠ flockOwnerKey req := fun P mem => by
    simpa using List.mem_takeWhile_imp mem
  have split : (server.resources name).lrGranted = pre ++ mid ++ post := by
    rw [List.append_assoc, ← dropEq, List.takeWhile_append_dropWhile]
  have inGranted : ∀ P ∈ mid, P ∈ (server.resources name).lrGranted := fun P mem => by
    rw [split]
    simp [mem]
  have sorted := ordered.sorted (flockOwnerKey req)
  rw [split, filter_block_self outsidePre inMid outsidePost] at sorted
  have inv₀ : MergeInv req mid pre post [] mid req ⟨req, .req, req.mode = .nl, 0⟩ pre (mid ++ post) :=
    mergeInv_start inMid (fun P mem => noNl P (inGranted P mem) (inMid P mem))
      (fun P mem => ordered.wellFormed P (inGranted P mem)) sorted outsidePost (UInt64.le_iff_toNat_le.1 range)
  have ownlocks : ownlocksSplit (server.resources name).lrGranted req = (pre, mid ++ post) := by
    rw [split, List.append_assoc]
    refine ownlocksSplit_block outsidePre fun P head => ?_
    cases mid with
    | nil => simp [closes rfl] at head
    | cons Q mid =>
      simp only [List.cons_append, List.head?_cons, Option.some.injEq] at head
      exact head ▸ inMid Q List.mem_cons_self
  suffices ∃ own', (server'.resources name).lrGranted = pre ++ own' ++ post ∧ FlockMergedOwn req mid own' by
    obtain ⟨own', grantedEq, merged⟩ := this
    exact flockGranted_of_merged ordered split outsidePre inMid outsidePost closes grantedEq merged
  unfold ldlmProcessFlockLockCore at grants
  obtain ⟨first, firstPass, afterFirst⟩ := Option.bind_eq_some_iff.1 grants
  have firstMerge := flockPass_merge firstPass
  simp only [Option.getD_none, ite_self, ownlocks] at firstMerge
  cases first with
  | finished s outcome ov =>
    -- the first pass granted
    cases afterFirst
    exact flockMergePass_granted_of_inv inv₀ (firstMerge fun _ _ _ same => by
      cases same
      rfl)
  | restart s m before rest =>
    -- the first pass stopped to split a lock; the second has the lock it needs
    obtain ⟨stopped, stoppedGranted⟩ := flockMergePass_restart (firstMerge fun _ _ _ same => by cases same)
    have ends := flockMergeLoop_ends none _ _ _ [] mid req inv₀
    rw [stopped] at ends
    obtain ⟨-, isReq, B, C, N, inv, left⟩ := ends
    obtain ⟨second, secondPass, afterSecond⟩ := Option.bind_eq_some_iff.1 afterFirst
    cases second with
    | restart => cases afterSecond
    | finished s' outcome' ov' =>
      cases afterSecond
      have secondMerge := flockPass_merge secondPass fun _ _ _ same => by
        cases same
        rfl
      simp only [stoppedGranted] at secondMerge
      split_ifs at secondMerge
      · rw [inv.ownlocksSplit_rescan isReq left outsidePre] at secondMerge
        exact flockMergePass_granted_of_inv (inv.rescan isReq) secondMerge
      · exact flockMergePass_granted_of_inv inv secondMerge

/-! ## An unlock inside a lock, and one that frees a waiting request -/

/-- Two clients on two nodes. -/
def flockMergeDemoExports : List FlockExport := [⟨1, 1, false, false⟩, ⟨2, 2, false, false⟩]

/-- Owner 10 locks bytes 0 to 10 for writing; owner 20 asks for the same and
waits. -/
def flockMergeDemoEvents : List FlockEvent :=
  [.enqueue 100 1 1 10 .pw 0 10 0, .enqueue 100 1 2 20 .pw 0 10 0]

def flockMergeDemoServer : FlockServer :=
  (Machine.run flockStep (some (flockServerInit flockMergeDemoExports)) flockMergeDemoEvents).getD
    (flockServerInit flockMergeDemoExports)

theorem flockMergeDemoServer_run :
    Machine.run flockStep (some (flockServerInit flockMergeDemoExports)) flockMergeDemoEvents =
      some flockMergeDemoServer := by
  rfl

theorem flockMergeDemoServer_granted :
    (flockMergeDemoServer.resources 1).lrGranted = [⟨1, 1, 10, .pw, 0, 10⟩] := by
  decide

/-- The server once owner 10 unlocks bytes 3 to 5, which splits its lock. -/
def flockMergeDemoSplit : FlockServer :=
  ((ldlmProcessFlockLockCore 100 { flockMergeDemoServer with nextHandle := 4 } 1 ⟨3, 1, 10, .nl, 3, 5⟩ 0
    true).map (·.1)).getD flockMergeDemoServer

theorem ldlmProcessFlockLockCore_granted_map_on_split :
    FlockOrdered (flockMergeDemoServer.resources 1).lrGranted ∧
      ldlmProcessFlockLockCore 100 { flockMergeDemoServer with nextHandle := 4 } 1 ⟨3, 1, 10, .nl, 3, 5⟩ 0 true =
        some (flockMergeDemoSplit, .granted, 2) ∧
      (∀ x, flockOwnerMode (flockMergeDemoSplit.resources 1).lrGranted (10, 1) x =
        if 3 ≤ x ∧ x ≤ 5 then none else flockOwnerMode (flockMergeDemoServer.resources 1).lrGranted (10, 1) x) ∧
      (∀ owner ≠ (10, 1), (flockMergeDemoSplit.resources 1).lrGranted.filter (fun lock => flockOwnerKey lock = owner) =
        (flockMergeDemoServer.resources 1).lrGranted.filter (fun lock => flockOwnerKey lock = owner)) ∧
      FlockOrdered (flockMergeDemoSplit.resources 1).lrGranted := by
  -- the request comes to a server that has numbered it, as flockStep does
  have ordered : FlockOrdered ({ flockMergeDemoServer with nextHandle := 4 }.resources 1).lrGranted := by
    rw [flockMergeDemoServer_granted]
    exact FlockOrdered.singleton (by decide)
  have noNl : ∀ lock ∈ ({ flockMergeDemoServer with nextHandle := 4 }.resources 1).lrGranted,
      flockOwnerKey lock = flockOwnerKey ⟨3, 1, 10, .nl, 3, 5⟩ → lock.mode ≠ .nl := by
    rw [flockMergeDemoServer_granted]
    decide
  have grants : ldlmProcessFlockLockCore 100 { flockMergeDemoServer with nextHandle := 4 } 1
      ⟨3, 1, 10, .nl, 3, 5⟩ 0 true = some (flockMergeDemoSplit, .granted, 2) := by
    rfl
  exact ⟨ordered, grants, ldlmProcessFlockLockCore_granted_map ordered noNl (by decide) grants⟩

/-- The server once owner 10 unlocks all its bytes. -/
def flockMergeDemoUnlocked : FlockServer :=
  ((ldlmProcessFlockLock 100 { flockMergeDemoServer with nextHandle := 4 } 1 ⟨3, 1, 10, .nl, 0, 10⟩ 0
    true).map (·.1)).getD flockMergeDemoServer

/-- An unlock that cuts a lock on its first enqueue reprocesses the waiting
queue, which grants owner 20 the lock it waited for: ldlm_process_flock_lock
as a whole changes another owner's granted locks. -/
theorem ldlmProcessFlockLock_unlock_grants_other_owner :
    Machine.run flockStep (some (flockServerInit flockMergeDemoExports)) flockMergeDemoEvents =
        some flockMergeDemoServer ∧
      FlockOrdered (flockMergeDemoServer.resources 1).lrGranted ∧
      ldlmProcessFlockLock 100 { flockMergeDemoServer with nextHandle := 4 } 1 ⟨3, 1, 10, .nl, 0, 10⟩ 0 true =
        some (flockMergeDemoUnlocked, .granted) ∧
      (flockMergeDemoServer.resources 1).lrGranted.filter (fun lock => flockOwnerKey lock = (20, 2)) = [] ∧
      (flockMergeDemoUnlocked.resources 1).lrGranted.filter (fun lock => flockOwnerKey lock = (20, 2)) =
        [⟨2, 2, 20, .pw, 0, 10⟩] := by
  refine ⟨flockMergeDemoServer_run, ?_, by rfl, by decide, by decide⟩
  rw [flockMergeDemoServer_granted]
  exact FlockOrdered.singleton (by decide)

end Lustre.Ldlm
