import Lustre.Library.Loop
import Mathlib.Data.List.Basic

/-!
# The FLD cache (fld/fld_cache.c)

The location database maps sequence ranges `[lsr_start, lsr_end)` to the MDT or
OST (`lsr_index`, with `lsr_flags` telling the two kinds apart) that serves them.
Its cache is a list of entries sorted by start, and an LRU list of the same
entries.  `fld_cache_insert` walks the sorted list to where the new range goes:
it adds it there, or hands an entry of the same kind that it meets to
`fld_cache_overlap_handle`, which grows the entry, overwrites it, punches a hole
in it (`fld_cache_punch_hole`, which makes a third entry), or cuts it on one
side.  Every addition ends with `fld_fix_new_list`, a pass over the whole list
that merges neighbours of the same kind and index, cuts or overwrites
neighbours that overlap, and starts over after each such change.
`fld_cache_lookup` walks the list to the first entry that holds a sequence and
reports the last entry it passed when it stops early.

An entry is a range with an address; the address ties it to its place in the
LRU list.  `LASSERT`s are a failed outcome, `none`.  The fix-up pass is a loop
(`Library.Loop`) run for one round more than `fixRank`, a bound on its rounds:
`fixBody_run` proves that the pass always finishes within it, from any list, so
`none` from the pass is an `LASSERT` and nothing else.
-/

namespace Lustre.Fld

/-- struct lu_seq_range -/
structure LuSeqRange where
  lsrStart : UInt64
  lsrEnd : UInt64
  lsrIndex : UInt32
  lsrFlags : UInt32
  deriving DecidableEq, Repr

/-- LU_SEQ_RANGE_MDT -/
def luSeqRangeMdt : UInt32 := 0x0

/-- LU_SEQ_RANGE_OST -/
def luSeqRangeOst : UInt32 := 0x1

def enoent : Int := 2

/-- lu_seq_range_within -/
def luSeqRangeWithin (range : LuSeqRange) (seq : UInt64) : Bool :=
  seq ≥ range.lsrStart && seq < range.lsrEnd

/-- lu_seq_range_is_sane -/
def luSeqRangeIsSane (range : LuSeqRange) : Bool := range.lsrEnd ≥ range.lsrStart

/-- struct fld_cache_entry: its range and its address. -/
structure FldCacheEntry where
  fcePtr : Nat
  fceRange : LuSeqRange
  deriving DecidableEq, Repr

/-- struct fld_cache, with the addresses handed out so far in `nextPtr`.
`fciLru` holds the addresses of the entries, the most recently added first. -/
structure FldCache where
  fciThreshold : Nat
  fciCacheSize : Nat
  fciCacheCount : Nat
  fciLru : List Nat
  fciEntriesHead : List FldCacheEntry
  fciNoShrink : Bool
  nextPtr : Nat
  deriving DecidableEq, Repr

/-! ## List surgery -/

/-- list_add: put `entry` right after the entry at address `pos`, or at the
head for `none`. -/
def listAdd (entry : FldCacheEntry) : Option Nat → List FldCacheEntry → List FldCacheEntry
  | none, entries => entry :: entries
  | some _, [] => []
  | some pos, e :: rest => if e.fcePtr = pos then e :: entry :: rest else e :: listAdd entry (some pos) rest

/-- The position right before the entry at address `ptr`: `f_curr->fce_list.prev`. -/
def prevOf (ptr : Nat) : Option Nat → List FldCacheEntry → Option Nat
  | _, [] => none
  | before, e :: rest => if e.fcePtr = ptr then before else prevOf ptr (some e.fcePtr) rest

/-- Store a new range in the entry at address `ptr`. -/
def FldCache.setRange (cache : FldCache) (ptr : Nat) (range : LuSeqRange) : FldCache :=
  { cache with
    fciEntriesHead := cache.fciEntriesHead.map fun e => if e.fcePtr = ptr then { e with fceRange := range } else e }

/-! ## The model -/

/-- fld_cache_entry_delete -/
def fldCacheEntryDelete (cache : FldCache) (ptr : Nat) : FldCache :=
  { cache with
    fciEntriesHead := cache.fciEntriesHead.filter (·.fcePtr ≠ ptr)
    fciLru := cache.fciLru.filter (· ≠ ptr)
    fciCacheCount := cache.fciCacheCount - 1 }

/-- One round of the loop of `fld_fix_new_list` at position `i` of the list:
`f_curr` is the entry at `i` and `f_next` the one after it.  It leaves with
the cache, or with `none` at a failed `LASSERT`; it goes on at the next
position, at the same one after `f_curr` is deleted, or at 0 for
`restart_fixup`. -/
def fixBody (state : FldCache × Nat) : Option FldCache ⊕ (FldCache × Nat) :=
  let (cache, i) := state
  match cache.fciEntriesHead[i]? with
  | none => .inl (some cache)
  | some fCurr =>
    let c := fCurr.fceRange
    if !luSeqRangeIsSane c then .inl none
    else match cache.fciEntriesHead[i + 1]? with
    | none => .inl (some cache)
    | some fNext =>
      let n := fNext.fceRange
      -- the new range of `f_next`, stored in place
      let setNext := fun range : LuSeqRange =>
        { cache with fciEntriesHead := cache.fciEntriesHead.set (i + 1) { fNext with fceRange := range } }
      if c.lsrFlags ≠ n.lsrFlags then .inr (cache, i + 1)
      else if ¬ c.lsrStart ≤ n.lsrStart then .inl none
      else if c.lsrEnd = n.lsrStart then
        if c.lsrIndex ≠ n.lsrIndex then .inr (cache, i + 1)
        else .inr (fldCacheEntryDelete (setNext { n with lsrStart := c.lsrStart }) fCurr.fcePtr, i)
      else if n.lsrStart < c.lsrEnd then
        if c.lsrIndex = n.lsrIndex then
          .inr (fldCacheEntryDelete (setNext { n with lsrStart := c.lsrStart, lsrEnd := max c.lsrEnd n.lsrEnd })
            fCurr.fcePtr, 0)
        else if n.lsrEnd ≤ c.lsrEnd then .inr (fldCacheEntryDelete (setNext c) fCurr.fcePtr, 0)
        else .inr (setNext { n with lsrStart := c.lsrEnd }, 0)
      else if c.lsrStart = n.lsrStart ∧ c.lsrEnd = n.lsrEnd then
        .inr (fldCacheEntryDelete cache fCurr.fcePtr, i)
      else .inr (cache, i + 1)

/-- How much room an entry takes: `lsr_end - lsr_start`, 0 for an insane range. -/
def FldCacheEntry.span (entry : FldCacheEntry) : Nat :=
  entry.fceRange.lsrEnd.toNat - entry.fceRange.lsrStart.toNat

/-- How much room the entries of a list take. -/
def spanSum (entries : List FldCacheEntry) : Nat := (entries.map FldCacheEntry.span).sum

/-- A bound on the rounds left to `fld_fix_new_list` from position `i`: every
restart shortens the list or the room its entries take. -/
def fixRank (entries : List FldCacheEntry) (i : Nat) : Nat :=
  (entries.length * 2 ^ 64 + spanSum entries) * (entries.length + 1) + (entries.length - i)

/-- fld_fix_new_list -/
def fldFixNewList (cache : FldCache) : Option FldCache :=
  (Loop.run fixBody (fixRank cache.fciEntriesHead 0 + 1) (cache, 0)).join

/-- fld_cache_entry_add -/
def fldCacheEntryAdd (cache : FldCache) (fNew : FldCacheEntry) (pos : Option Nat) : Option FldCache :=
  fldFixNewList { cache with
    fciEntriesHead := listAdd fNew pos cache.fciEntriesHead
    fciLru := fNew.fcePtr :: cache.fciLru
    fciCacheCount := cache.fciCacheCount + 1 }

/-- The loop of `fld_cache_shrink`, over the addresses of the LRU list from its
tail. -/
def shrinkFrom (cache : FldCache) : List Nat → FldCache
  | [] => cache
  | ptr :: newer =>
    if cache.fciCacheCount + cache.fciThreshold > cache.fciCacheSize then
      shrinkFrom (fldCacheEntryDelete cache ptr) newer
    else cache

/-- fld_cache_shrink -/
def fldCacheShrink (cache : FldCache) : FldCache :=
  if cache.fciCacheCount < cache.fciCacheSize then cache
  else shrinkFrom cache cache.fciLru.reverse

/-- fld_cache_punch_hole: `f_curr` is cut into itself up to the new range,
the new range, and a third entry `fldt` from the new range's end.  `fldt` comes
zeroed from the allocator and gets a start, an end and an index, but no flags. -/
def fldCachePunchHole (cache : FldCache) (fCurr fNew : FldCacheEntry) : Option FldCache := do
  let fldt : FldCacheEntry := ⟨cache.nextPtr,
    { lsrStart := fNew.fceRange.lsrEnd, lsrEnd := fCurr.fceRange.lsrEnd,
      lsrIndex := fCurr.fceRange.lsrIndex, lsrFlags := 0 }⟩
  let cache := { cache with nextPtr := cache.nextPtr + 1 }
  let cache := cache.setRange fCurr.fcePtr { fCurr.fceRange with lsrEnd := fNew.fceRange.lsrStart }
  let cache ← fldCacheEntryAdd cache fNew (some fCurr.fcePtr)
  fldCacheEntryAdd cache fldt (some fNew.fcePtr)

/-- fld_cache_overlap_handle -/
def fldCacheOverlapHandle (cache : FldCache) (fCurr fNew : FldCacheEntry) : Option FldCache :=
  let range := fNew.fceRange
  let cur := fCurr.fceRange
  if cur.lsrIndex = range.lsrIndex then
    fldFixNewList (cache.setRange fCurr.fcePtr
      { cur with lsrStart := min cur.lsrStart range.lsrStart, lsrEnd := max cur.lsrEnd range.lsrEnd })
  -- case 1: the new range covers the entry
  else if range.lsrStart ≤ cur.lsrStart ∧ cur.lsrEnd ≤ range.lsrEnd then
    fldFixNewList (cache.setRange fCurr.fcePtr range)
  -- case 2: the new range lies inside the entry
  else if cur.lsrStart < range.lsrStart ∧ range.lsrEnd < cur.lsrEnd then
    fldCachePunchHole cache fCurr fNew
  -- case 3: the new range overlaps the entry's left end
  else if range.lsrEnd ≤ cur.lsrEnd then
    if ¬ range.lsrStart ≤ cur.lsrStart then none
    else fldCacheEntryAdd (cache.setRange fCurr.fcePtr { cur with lsrStart := range.lsrEnd }) fNew
      (prevOf fCurr.fcePtr none cache.fciEntriesHead)
  -- case 4: the new range overlaps the entry's right end
  else if cur.lsrStart ≤ range.lsrStart then
    if ¬ cur.lsrEnd ≤ range.lsrEnd then none
    else fldCacheEntryAdd (cache.setRange fCurr.fcePtr { cur with lsrEnd := range.lsrStart }) fNew
      (some fCurr.fcePtr)
  -- CERROR: the new range is dropped
  else some cache

/-- Where the walk of `fld_cache_insert_nolock` stops. -/
inductive InsertAt
  /-- add the new entry after the entry at this address, or at the head -/
  | add (pos : Option Nat)
  /-- the new range meets this entry of its kind -/
  | overlap (fCurr : FldCacheEntry)

/-- The walk of `fld_cache_insert_nolock`; `prev` is the last entry passed. -/
def insertWalk (range : LuSeqRange) : List FldCacheEntry → Option Nat → InsertAt
  | [], prev => .add prev
  | fCurr :: rest, prev =>
    if range.lsrEnd < fCurr.fceRange.lsrStart ∨
        (range.lsrEnd = fCurr.fceRange.lsrStart ∧ range.lsrFlags ≠ fCurr.fceRange.lsrFlags) then .add prev
    else if range.lsrStart < fCurr.fceRange.lsrEnd ∧ range.lsrFlags = fCurr.fceRange.lsrFlags then
      .overlap fCurr
    else insertWalk range rest (some fCurr.fcePtr)

/-- fld_cache_insert_nolock -/
def fldCacheInsertNolock (cache : FldCache) (fNew : FldCacheEntry) : Option FldCache :=
  let cache := if !cache.fciNoShrink then fldCacheShrink cache else cache
  match insertWalk fNew.fceRange cache.fciEntriesHead none with
  | .overlap fCurr => fldCacheOverlapHandle cache fCurr fNew
  | .add prev => fldCacheEntryAdd cache fNew prev

/-- fld_cache_insert, with fld_cache_entry_create -/
def fldCacheInsert (cache : FldCache) (range : LuSeqRange) : Option FldCache :=
  if !luSeqRangeIsSane range then none
  else fldCacheInsertNolock { cache with nextPtr := cache.nextPtr + 1 } ⟨cache.nextPtr, range⟩

/-- The loop of `fld_cache_lookup`: `prev` is the range of the last entry
passed.  The second component is what is stored in `*range`, `none` when
nothing is. -/
def lookupFrom (seq : UInt64) : List FldCacheEntry → Option LuSeqRange → Int × Option LuSeqRange
  | [], _ => (-enoent, none)
  | flde :: rest, prev =>
    if flde.fceRange.lsrStart > seq then (-enoent, prev)
    else if luSeqRangeWithin flde.fceRange seq then (0, some flde.fceRange)
    else lookupFrom seq rest (some flde.fceRange)

/-- fld_cache_lookup -/
def fldCacheLookup (cache : FldCache) (seq : UInt64) : Int × Option LuSeqRange :=
  lookupFrom seq cache.fciEntriesHead none

/-- The cache part of fld_index_lookup: `range` is what the caller passed in. -/
def fldIndexLookup (cache : FldCache) (seq : UInt64) (range : LuSeqRange) : Int × LuSeqRange :=
  match fldCacheLookup cache seq with
  | (0, some fldRec) => (if luSeqRangeWithin fldRec seq then 0 else -enoent, fldRec)
  | (rc, _) => (rc, range)

/-! ## The fix-up pass ends -/

@[simp] theorem spanSum_nil : spanSum [] = 0 := rfl

@[simp] theorem spanSum_cons (entry : FldCacheEntry) (entries : List FldCacheEntry) :
    spanSum (entry :: entries) = entry.span + spanSum entries := by
  simp [spanSum]

theorem spanSum_set {entries : List FldCacheEntry} {i : Nat} {old : FldCacheEntry}
    (at_ : entries[i]? = some old) (new : FldCacheEntry) :
    spanSum (entries.set i new) + old.span = spanSum entries + new.span := by
  induction entries generalizing i with
  | nil => cases at_
  | cons head rest ih =>
    cases i with
    | zero =>
      cases at_
      simp only [List.set_cons_zero, spanSum_cons]
      omega
    | succ i =>
      have below := ih at_
      simp only [List.set_cons_succ, spanSum_cons]
      omega

theorem spanSum_filter_le (p : FldCacheEntry → Bool) (entries : List FldCacheEntry) :
    spanSum (entries.filter p) ≤ spanSum entries := by
  induction entries with
  | nil => exact Nat.le_refl _
  | cons head rest ih =>
    by_cases keep : p head
    · simp only [List.filter_cons, keep, if_true, spanSum_cons]
      omega
    · simp only [List.filter_cons, keep, spanSum_cons]
      simp only [Bool.false_eq_true, if_false]
      omega

/-- Deleting an entry takes it and every entry of its address out. -/
theorem delete_shrinks {entries : List FldCacheEntry} {entry : FldCacheEntry} (mem : entry ∈ entries) :
    (entries.filter (·.fcePtr ≠ entry.fcePtr)).length + 1 ≤ entries.length ∧
      spanSum (entries.filter (·.fcePtr ≠ entry.fcePtr)) + entry.span ≤ spanSum entries := by
  induction entries with
  | nil => cases mem
  | cons head rest ih =>
    by_cases same : head.fcePtr = entry.fcePtr
    · have dropped : (head :: rest).filter (·.fcePtr ≠ entry.fcePtr) =
          rest.filter (·.fcePtr ≠ entry.fcePtr) := by simp [same]
      have fewer : (rest.filter (·.fcePtr ≠ entry.fcePtr)).length ≤ rest.length := List.length_filter_le _ _
      have lighter : spanSum (rest.filter (·.fcePtr ≠ entry.fcePtr)) ≤ spanSum rest :=
        spanSum_filter_le _ rest
      rcases List.mem_cons.mp mem with rfl | inRest
      · rw [dropped]
        simp only [List.length_cons, spanSum_cons]
        omega
      · obtain ⟨shorter, smaller⟩ := ih inRest
        rw [dropped]
        simp only [List.length_cons, spanSum_cons]
        omega
    · have kept : (head :: rest).filter (·.fcePtr ≠ entry.fcePtr) =
          head :: rest.filter (·.fcePtr ≠ entry.fcePtr) := by simp [same]
      have inRest : entry ∈ rest := by
        rcases List.mem_cons.mp mem with rfl | inRest
        · exact absurd rfl same
        · exact inRest
      obtain ⟨shorter, smaller⟩ := ih inRest
      rw [kept]
      simp only [List.length_cons, spanSum_cons]
      omega

/-- A round that leaves a list no longer, and shorter or with less room, lowers
the rank, wherever it goes on. -/
theorem fixRank_lt {entries entries' : List FldCacheEntry} {i i' : Nat}
    (notLonger : entries'.length ≤ entries.length)
    (lighter : entries'.length * 2 ^ 64 + spanSum entries' < entries.length * 2 ^ 64 + spanSum entries) :
    fixRank entries' i' < fixRank entries i := by
  unfold fixRank
  have bound : (entries'.length * 2 ^ 64 + spanSum entries' + 1) * (entries'.length + 1) ≤
      (entries.length * 2 ^ 64 + spanSum entries) * (entries.length + 1) :=
    Nat.mul_le_mul lighter (by omega)
  rw [Nat.add_one_mul] at bound
  omega

theorem fixRank_succ {entries : List FldCacheEntry} {i : Nat} (inside : i + 1 < entries.length) :
    fixRank entries (i + 1) < fixRank entries i := by
  unfold fixRank
  omega

/-- Deleting `f_curr` lowers the rank. -/
theorem fixRank_delete {entries : List FldCacheEntry} {c : FldCacheEntry} (mem : c ∈ entries) (i i' : Nat) :
    fixRank (entries.filter (·.fcePtr ≠ c.fcePtr)) i' < fixRank entries i := by
  obtain ⟨shorter, smaller⟩ := delete_shrinks mem
  exact fixRank_lt (by omega) (by omega)

/-- Storing into `f_next` a range no larger than both together and deleting
`f_curr` lowers the rank. -/
theorem fixRank_set_delete {entries : List FldCacheEntry} {i : Nat} {c n : FldCacheEntry}
    (atC : entries[i]? = some c) (atN : entries[i + 1]? = some n) (new : FldCacheEntry)
    (bounded : new.span ≤ c.span + n.span) (i' : Nat) :
    fixRank ((entries.set (i + 1) new).filter (·.fcePtr ≠ c.fcePtr)) i' < fixRank entries i := by
  have stays : c ∈ entries.set (i + 1) new := by
    apply List.mem_of_getElem?
    rw [List.getElem?_set, if_neg (Nat.succ_ne_self i)]
    exact atC
  obtain ⟨shorter, smaller⟩ := delete_shrinks stays
  have reweighed := spanSum_set atN new
  rw [List.length_set] at shorter
  exact fixRank_lt (by omega) (by omega)

/-- Storing into `f_next` a smaller range lowers the rank. -/
theorem fixRank_set_shrink {entries : List FldCacheEntry} {i : Nat} {n : FldCacheEntry}
    (atN : entries[i + 1]? = some n) (new : FldCacheEntry) (smaller : new.span < n.span) (i' : Nat) :
    fixRank (entries.set (i + 1) new) i' < fixRank entries i := by
  have reweighed := spanSum_set atN new
  exact fixRank_lt (Nat.le_of_eq List.length_set) (by rw [List.length_set]; omega)

/-- Each round of the fix-up pass leaves, or goes on at a lower rank: a merge
or an overwrite deletes `f_curr` without adding room, and a cut shrinks
`f_next`. -/
theorem fixBody_leaves_or_lowers (state : FldCache × Nat) :
    (∃ result, fixBody state = .inl result) ∨
      ∃ next, fixBody state = .inr next ∧
        fixRank next.1.fciEntriesHead next.2 < fixRank state.1.fciEntriesHead state.2 := by
  obtain ⟨cache, i⟩ := state
  simp only [fixBody]
  split
  · exact .inl ⟨_, rfl⟩
  · next fCurr atC =>
    split
    · exact .inl ⟨_, rfl⟩
    · next sane =>
      have cSane : fCurr.fceRange.lsrStart.toNat ≤ fCurr.fceRange.lsrEnd.toNat := by
        simpa [luSeqRangeIsSane, UInt64.le_iff_toNat_le] using sane
      split
      · exact .inl ⟨_, rfl⟩
      · next fNext atN =>
        have inside : i + 1 < cache.fciEntriesHead.length := (List.getElem?_eq_some_iff.mp atN).1
        have mem : fCurr ∈ cache.fciEntriesHead := List.mem_of_getElem? atC
        split
        · exact .inr ⟨_, rfl, fixRank_succ inside⟩
        split
        · exact .inl ⟨_, rfl⟩
        next ordered =>
        rw [not_not, UInt64.le_iff_toNat_le] at ordered
        split
        · -- f_curr ends where f_next starts: merged when they share an index
          next touching =>
          have touching := congrArg UInt64.toNat touching
          split
          · exact .inr ⟨_, rfl, fixRank_succ inside⟩
          · refine .inr ⟨_, rfl, fixRank_set_delete atC atN _ ?_ _⟩
            simp only [FldCacheEntry.span]
            omega
        split
        · -- f_next starts inside f_curr
          next overlapping =>
          rw [UInt64.lt_iff_toNat_lt] at overlapping
          split
          · refine .inr ⟨_, rfl, fixRank_set_delete atC atN _ ?_ _⟩
            simp only [FldCacheEntry.span, UInt64.toNat_max]
            omega
          · split
            · refine .inr ⟨_, rfl, fixRank_set_delete atC atN _ ?_ _⟩
              simp only [FldCacheEntry.span]
              omega
            · next beyond =>
              rw [UInt64.le_iff_toNat_le] at beyond
              refine .inr ⟨_, rfl, fixRank_set_shrink atN _ ?_ _⟩
              simp only [FldCacheEntry.span]
              omega
        split
        · exact .inr ⟨_, rfl, fixRank_delete mem _ _⟩
        · exact .inr ⟨_, rfl, fixRank_succ inside⟩

/-- `fld_fix_new_list` always finishes within its bound: from any list, the
pass leaves with the cache or at a failed `LASSERT`. -/
theorem fixBody_run (cache : FldCache) :
    ∃ result, Loop.run fixBody (fixRank cache.fciEntriesHead 0 + 1) (cache, 0) = some result ∧
      fldFixNewList cache = result := by
  obtain ⟨result, -, ran⟩ := Loop.run_of_ranked
    (fun rank state => fixRank state.1.fciEntriesHead state.2 = rank) (fun _ => True)
    (fun rank state isRank => by
      rcases fixBody_leaves_or_lowers state with ⟨result, leaves⟩ | ⟨next, goesOn, lower⟩
      · exact .inl ⟨result, leaves, trivial⟩
      · exact .inr ⟨_, next, isRank ▸ lower, goesOn, rfl⟩)
    _ (cache, 0) rfl _ (Nat.lt_succ_self _)
  refine ⟨result, ran, ?_⟩
  rw [fldFixNewList, ran, Option.join_some]

/-! ## Lookup -/

/-- The loop of `fld_cache_lookup` over a list sorted by start finds the first
entry that holds `seq`.  Failing that, it stores the last entry that starts at
or before `seq` (or the one it was handed) when it stops at an entry that
starts after `seq`, and stores nothing when it runs off the end of the list. -/
theorem lookupFrom_of_sorted {seq : UInt64} {entries : List FldCacheEntry}
    (sorted : entries.Pairwise fun a b => a.fceRange.lsrStart ≤ b.fceRange.lsrStart)
    (prev : Option LuSeqRange) :
    lookupFrom seq entries prev =
      match entries.find? (luSeqRangeWithin ·.fceRange seq) with
      | some found => (0, some found.fceRange)
      | none => (-enoent,
          if entries.any (seq < ·.fceRange.lsrStart) then
            ((entries.filter (·.fceRange.lsrStart ≤ seq)).getLast?.map (·.fceRange)).or prev
          else none) := by
  induction entries generalizing prev with
  | nil => rfl
  | cons flde rest ih =>
    obtain ⟨after, sortedRest⟩ := List.pairwise_cons.mp sorted
    by_cases past : seq < flde.fceRange.lsrStart
    · -- every entry from here on starts after `seq`
      have allPast : ∀ e ∈ flde :: rest, seq < e.fceRange.lsrStart := by
        intro e mem
        rcases List.mem_cons.mp mem with rfl | inRest
        · exact past
        · exact UInt64.lt_of_lt_of_le past (after e inRest)
      have missing : (flde :: rest).find? (luSeqRangeWithin ·.fceRange seq) = none := by
        rw [List.find?_eq_none]
        intro e mem
        simp [luSeqRangeWithin, UInt64.not_le.mpr (allPast e mem)]
      have noneBefore : (flde :: rest).filter (·.fceRange.lsrStart ≤ seq) = [] := by
        rw [List.filter_eq_nil_iff]
        intro e mem
        simp [UInt64.not_le.mpr (allPast e mem)]
      rw [missing, noneBefore]
      simp [lookupFrom, past]
    · by_cases holds : luSeqRangeWithin flde.fceRange seq
      · simp [lookupFrom, past, holds]
      · have started : flde.fceRange.lsrStart ≤ seq := UInt64.not_lt.mp past
        rw [lookupFrom, if_neg past, if_neg holds, ih sortedRest]
        simp only [List.find?_cons, holds, List.any_cons, past, decide_false, Bool.false_or,
          List.filter_cons, started, decide_true, if_true, List.getLast?_cons]
        cases (rest.find? (luSeqRangeWithin ·.fceRange seq)) with
        | some found => rfl
        | none => cases (rest.filter (·.fceRange.lsrStart ≤ seq)).getLast? <;> rfl

section Sorted

variable {cache : FldCache}
  (sorted : cache.fciEntriesHead.Pairwise fun a b => a.fceRange.lsrStart ≤ b.fceRange.lsrStart)
include sorted

/-- On a sorted cache, a lookup answers with the first entry that holds `seq`. -/
theorem fldCacheLookup_of_find {seq : UInt64} {found : FldCacheEntry}
    (first : cache.fciEntriesHead.find? (luSeqRangeWithin ·.fceRange seq) = some found) :
    fldCacheLookup cache seq = (0, some found.fceRange) := by
  rw [fldCacheLookup, lookupFrom_of_sorted sorted, first]

/-- On a sorted cache, a lookup that finds nothing stores the last entry that
starts at or before `seq` when some entry starts after it. -/
theorem fldCacheLookup_of_stop {seq : UInt64}
    (missing : cache.fciEntriesHead.find? (luSeqRangeWithin ·.fceRange seq) = none)
    (stops : cache.fciEntriesHead.any (seq < ·.fceRange.lsrStart)) :
    fldCacheLookup cache seq =
      (-enoent, (cache.fciEntriesHead.filter (·.fceRange.lsrStart ≤ seq)).getLast?.map (·.fceRange)) := by
  rw [fldCacheLookup, lookupFrom_of_sorted sorted, missing, if_pos stops, Option.or_none]

end Sorted

/-! ## A hole punched in an OST's range -/

/-- An empty cache with room for 100 entries. -/
def emptyFldCache : FldCache := ⟨10, 100, 0, [], [], false, 0⟩

/-- Sequences 0 to 99 on OST 1. -/
def wideOstRange : LuSeqRange := ⟨0, 100, 1, luSeqRangeOst⟩

/-- Sequences 10 to 19, moved to OST 2. -/
def innerOstRange : LuSeqRange := ⟨10, 20, 2, luSeqRangeOst⟩

/-- The cache after the two inserts: the third entry, `fldt` of the punched
hole, has flags 0, those of an MDT. -/
def punchedFldCache : FldCache :=
  ⟨10, 100, 3, [2, 1, 0],
    [⟨0, ⟨0, 10, 1, luSeqRangeOst⟩⟩, ⟨1, ⟨10, 20, 2, luSeqRangeOst⟩⟩, ⟨2, ⟨20, 100, 1, luSeqRangeMdt⟩⟩],
    false, 3⟩

theorem fldCachePunchHole_loses_flags :
    (fldCacheInsert emptyFldCache wideOstRange).bind (fldCacheInsert · innerOstRange) =
        some punchedFldCache ∧
      -- 50 was last inserted with the OST range, and nothing evicted it ...
      luSeqRangeWithin wideOstRange 50 ∧ !luSeqRangeWithin innerOstRange 50 ∧
      punchedFldCache.fciCacheCount < punchedFldCache.fciCacheSize ∧
      -- ... yet the lookup answers with the flags of an MDT
      fldCacheLookup punchedFldCache 50 = (0, some ⟨20, 100, 1, luSeqRangeMdt⟩) ∧
      luSeqRangeMdt ≠ luSeqRangeOst ∧
      -- an entry starts before 150, but the failed lookup stores nothing
      fldCacheLookup punchedFldCache 150 = (-enoent, none) ∧
      (∃ entry ∈ punchedFldCache.fciEntriesHead, entry.fceRange.lsrStart ≤ 150) := by
  refine ⟨by decide, by decide, by decide, by decide, by decide, by decide, by decide, ?_⟩
  exact ⟨_, List.mem_cons_self, by decide⟩

end Lustre.Fld
