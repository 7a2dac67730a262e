import Mathlib.Data.List.Basic
import Mathlib.Logic.Function.Basic
import Mathlib.Tactic.Ring

/-!
# The bulk encryption page pools (ptlrpc/sec_bulk.c)

`page_pools` keeps the pages lent to bulk descriptors for encryption as a
stack in a two-level array: `epp_pools[p][g]` is slot `p * PAGES_PER_POOL + g`
of the stack, the slots below `epp_free_pages` hold free pages, and the pool
arrays below `npages_to_npools(epp_total_pages)` are allocated.
`sptlrpc_enc_pool_get_pages` pops the top slots into a descriptor,
`sptlrpc_enc_pool_put_pages` pushes them back, `enc_pools_insert` fills the
free slots with new pages and appends new pool arrays, and
`enc_pools_release_free_pages` pops free pages off the top and frees the pool
arrays past the new total.

Pages are numbered as `alloc_page` hands them out, and a pool array is a
function from its slots to page pointers.  A routine returns `none` where
the code fails an assertion or dereferences NULL.

`Consistent` is the layout of the stack.  Every routine keeps it when its
assertions hold; `enc_pools_shrink_scan` computes how many pages to release
as `epp_free_pages - PTLRPC_MAX_BRW_PAGES` in `unsigned long`, which wraps
when fewer pages are free, so it then asks `enc_pools_release_free_pages`
for more pages than are free and fails its assertion
(`Consistent.shrinkScan`).
-/

namespace Lustre
namespace SecBulk

/-- `PAGES_PER_POOL`: the page pointers one page of 4 KiB holds on a 64-bit
node. -/
def pagesPerPool : Nat := 512

/-- `PTLRPC_MAX_BRW_PAGES`: `1 << (LNET_MTU_BITS + PTLRPC_BULK_OPS_BITS)`
bytes in pages of 4 KiB. -/
def ptlrpcMaxBrwPages : Nat := 1024

@[simp] theorem pagesPerPool_eq : pagesPerPool = 512 := rfl

@[simp] theorem ptlrpcMaxBrwPages_eq : ptlrpcMaxBrwPages = 1024 := rfl

/-- `npages_to_npools(npages)`: the pool arrays `npages` pages fill. -/
def npagesToNpools (npages : Nat) : Nat := (npages + pagesPerPool - 1) / pagesPerPool

/-- The fields of `page_pools` the pool routines keep.  The wait queue, the
idle index and the statistics are left out. -/
structure PagePools where
  /-- `epp_max_pages`. -/
  eppMaxPages : Nat
  /-- `epp_max_pools`. -/
  eppMaxPools : Nat
  /-- `epp_growing`. -/
  eppGrowing : Bool
  /-- `epp_total_pages`. -/
  eppTotalPages : Nat
  /-- `epp_free_pages`. -/
  eppFreePages : Nat
  /-- `epp_pools`: each pool array NULL, or its page pointers. -/
  eppPools : Nat → Option (Nat → Option Nat)

/-- `if (++g_idx == PAGES_PER_POOL) { p_idx++; g_idx = 0; }`. -/
def advance (pIdx gIdx : Nat) : Nat × Nat :=
  if gIdx + 1 = pagesPerPool then (pIdx + 1, 0) else (pIdx, gIdx + 1)

/-- `pools[pIdx][gIdx] = v`, in an allocated pool array. -/
def setSlot (pools : Nat → Option (Nat → Option Nat)) (pIdx gIdx : Nat) (v : Option Nat) :
    Nat → Option (Nat → Option Nat) :=
  Function.update pools pIdx ((pools pIdx).map fun pool => Function.update pool gIdx v)

/-- Slot `i` of the stack: `pools[i / PAGES_PER_POOL][i % PAGES_PER_POOL]`,
nothing in a NULL pool array. -/
def slotAt (pools : Nat → Option (Nat → Option Nat)) (i : Nat) : Option Nat :=
  (pools (i / pagesPerPool)).bind fun pool => pool (i % pagesPerPool)

theorem slotAt_eq (pools : Nat → Option (Nat → Option Nat)) (i : Nat) :
    slotAt pools i = (pools (i / pagesPerPool)).bind fun pool => pool (i % pagesPerPool) := rfl

/-! ## Releasing free pages and the shrinker -/

/-- The page loop of `enc_pools_release_free_pages`: free the `npages` pages
from slot `(pIdx, gIdx)` on. -/
def releaseLoop : Nat → (Nat → Option (Nat → Option Nat)) → Nat → Nat → Option (Nat → Option (Nat → Option Nat))
  | 0, pools, _, _ => some pools
  | npages + 1, pools, pIdx, gIdx =>
    match pools pIdx with
    | none => none
    | some pool =>
      -- LASSERT(page_pools.epp_pools[p_idx][g_idx] != NULL)
      match pool gIdx with
      | none => none
      | some _ =>
        releaseLoop npages (setSlot pools pIdx gIdx none) (advance pIdx gIdx).1 (advance pIdx gIdx).2

theorem releaseLoop_succ (npages : Nat) (pools : Nat → Option (Nat → Option Nat)) (pIdx gIdx : Nat) :
    releaseLoop (npages + 1) pools pIdx gIdx =
      match pools pIdx with
      | none => none
      | some pool =>
        match pool gIdx with
        | none => none
        | some _ => releaseLoop npages (setSlot pools pIdx gIdx none) (advance pIdx gIdx).1 (advance pIdx gIdx).2 :=
  rfl

/-- The pool loop of `enc_pools_release_free_pages`: free `count` pool arrays
from `pIdxMax2` down. -/
def freePoolsLoop : Nat → (Nat → Option (Nat → Option Nat)) → Nat → Option (Nat → Option (Nat → Option Nat))
  | 0, pools, _ => some pools
  | count + 1, pools, pIdxMax2 =>
    -- LASSERT(page_pools.epp_pools[p_idx_max2])
    match pools pIdxMax2 with
    | none => none
    | some _ => freePoolsLoop count (Function.update pools pIdxMax2 none) (pIdxMax2 - 1)

theorem freePoolsLoop_succ (count : Nat) (pools : Nat → Option (Nat → Option Nat)) (pIdxMax2 : Nat) :
    freePoolsLoop (count + 1) pools pIdxMax2 =
      match pools pIdxMax2 with
      | none => none
      | some _ => freePoolsLoop count (Function.update pools pIdxMax2 none) (pIdxMax2 - 1) := rfl

/-- `enc_pools_release_free_pages(npages)`, whose argument is a `long`. -/
def encPoolsReleaseFreePages (pp : PagePools) (npages : Int) : Option PagePools :=
  -- LASSERT(npages > 0); LASSERT(npages <= epp_free_pages); LASSERT(epp_free_pages <= epp_total_pages)
  if npages ≤ 0 ∨ (pp.eppFreePages : Int) < npages ∨ pp.eppTotalPages < pp.eppFreePages then none
  else
    let n := npages.toNat
    -- max pool index before the release
    let pIdxMax2 := (pp.eppTotalPages - 1) / pagesPerPool
    let free := pp.eppFreePages - n
    let total := pp.eppTotalPages - n
    -- max pool index after the release
    let pIdxMax1 : Int := if total = 0 then -1 else ((total - 1) / pagesPerPool : Nat)
    let pIdx := free / pagesPerPool
    let gIdx := free % pagesPerPool
    -- LASSERT(page_pools.epp_pools[p_idx])
    match pp.eppPools pIdx with
    | none => none
    | some _ =>
      (releaseLoop n pp.eppPools pIdx gIdx).bind fun pools =>
        (freePoolsLoop ((pIdxMax2 : Int) - pIdxMax1).toNat pools pIdxMax2).map fun pools =>
          { pp with eppFreePages := free, eppTotalPages := total, eppPools := pools }

/-- An `unsigned long` passed as a `long`. -/
def ulongToLong (x : Nat) : Int := if x < 2 ^ 63 then x else (x : Int) - 2 ^ 64

/-- `enc_pools_shrink_scan(s, sc)`: the pools and `sc->nr_to_scan`, which it
returns.  The idle index and the statistics are left out. -/
def encPoolsShrinkScan (pp : PagePools) (nrToScan : Nat) : Option (PagePools × Nat) :=
  -- sc->nr_to_scan = min_t(unsigned long, sc->nr_to_scan, epp_free_pages - PTLRPC_MAX_BRW_PAGES)
  let nr := min nrToScan ((pp.eppFreePages + 2 ^ 64 - ptlrpcMaxBrwPages) % 2 ^ 64)
  if 0 < nr then (encPoolsReleaseFreePages pp (ulongToLong nr)).map fun pp => (pp, nr)
  else some (pp, nr)

/-! ## Getting and putting pages -/

/-- The loop of `sptlrpc_enc_pool_get_pages` that moves `count` pages from
slot `(pIdx, gIdx)` on into the encryption kiov. -/
def takeLoop : Nat → (Nat → Option (Nat → Option Nat)) → Nat → Nat →
    Option ((Nat → Option (Nat → Option Nat)) × List Nat)
  | 0, pools, _, _ => some (pools, [])
  | count + 1, pools, pIdx, gIdx =>
    match pools pIdx with
    | none => none
    | some pool =>
      -- LASSERT(page_pools.epp_pools[p_idx][g_idx] != NULL)
      match pool gIdx with
      | none => none
      | some page =>
        (takeLoop count (setSlot pools pIdx gIdx none) (advance pIdx gIdx).1 (advance pIdx gIdx).2).map
          fun taken => (taken.1, page :: taken.2)

theorem takeLoop_succ (count : Nat) (pools : Nat → Option (Nat → Option Nat)) (pIdx gIdx : Nat) :
    takeLoop (count + 1) pools pIdx gIdx =
      match pools pIdx with
      | none => none
      | some pool =>
        match pool gIdx with
        | none => none
        | some page =>
          (takeLoop count (setSlot pools pIdx gIdx none) (advance pIdx gIdx).1 (advance pIdx gIdx).2).map
            fun taken => (taken.1, page :: taken.2) := rfl

/-- What the locked part of `sptlrpc_enc_pool_get_pages` ends with. -/
inductive GetOutcome where
  /-- the pages, moved into the encryption kiov -/
  | got (pages : List Nat)
  /-- not enough free pages, and the pools grow with `epp_growing` set -/
  | grow
  /-- not enough free pages while another thread grows the pools: sleep -/
  | wait
  /-- not enough free pages and no growing: `-ENOMEM` -/
  | enomem

/-- `enc_pools_should_grow(page_needed, now)`. -/
def encPoolsShouldGrow (pp : PagePools) (pageNeeded : Nat) : Bool :=
  -- don't grow if someone else is growing the pools right now, or at full capacity
  if pp.eppGrowing || pp.eppTotalPages == pp.eppMaxPages then false
  -- if total pages is not enough, we need to grow
  else if pp.eppTotalPages < pageNeeded then true
  -- grow the pools in any other cases
  else true

/-- One locked pass of `sptlrpc_enc_pool_get_pages` for `count =
bd_iov_count` pages: take them when enough are free, and otherwise start a
grow, wait for one, or give up. -/
def sptlrpcEncPoolGetPages (pp : PagePools) (count : Nat) : Option (PagePools × GetOutcome) :=
  -- LASSERT(desc->bd_iov_count > 0); LASSERT(desc->bd_iov_count <= page_pools.epp_max_pages)
  if count = 0 ∨ pp.eppMaxPages < count then none
  else if pp.eppFreePages < count then
    if encPoolsShouldGrow pp count then some ({ pp with eppGrowing := true }, .grow)
    else if pp.eppGrowing then some (pp, .wait)
    else some (pp, .enomem)
  else
    let free := pp.eppFreePages - count
    (takeLoop count pp.eppPools (free / pagesPerPool) (free % pagesPerPool)).map fun taken =>
      ({ pp with eppFreePages := free, eppPools := taken.1 }, .got taken.2)

/-- The loop of `sptlrpc_enc_pool_put_pages` that moves the pages of the
encryption kiov into the slots from `(pIdx, gIdx)` on. -/
def putLoop : List Nat → (Nat → Option (Nat → Option Nat)) → Nat → Nat → Option (Nat → Option (Nat → Option Nat))
  | [], pools, _, _ => some pools
  | page :: pages, pools, pIdx, gIdx =>
    -- LASSERT(g_idx != 0 || page_pools.epp_pools[p_idx])
    match pools pIdx with
    | none => none
    | some pool =>
      -- LASSERT(page_pools.epp_pools[p_idx][g_idx] == NULL)
      match pool gIdx with
      | some _ => none
      | none => putLoop pages (setSlot pools pIdx gIdx (some page)) (advance pIdx gIdx).1 (advance pIdx gIdx).2

theorem putLoop_cons (page : Nat) (pages : List Nat) (pools : Nat → Option (Nat → Option Nat)) (pIdx gIdx : Nat) :
    putLoop (page :: pages) pools pIdx gIdx =
      match pools pIdx with
      | none => none
      | some pool =>
        match pool gIdx with
        | some _ => none
        | none => putLoop pages (setSlot pools pIdx gIdx (some page)) (advance pIdx gIdx).1 (advance pIdx gIdx).2 :=
  rfl

/-- `sptlrpc_enc_pool_put_pages(desc)` for a descriptor whose encryption kiov
holds `pages`. -/
def sptlrpcEncPoolPutPages (pp : PagePools) (pages : List Nat) : Option PagePools :=
  let pIdx := pp.eppFreePages / pagesPerPool
  let gIdx := pp.eppFreePages % pagesPerPool
  -- LASSERT(desc->bd_iov_count > 0); LASSERT(epp_free_pages + bd_iov_count <= epp_total_pages)
  if pages = [] ∨ pp.eppTotalPages < pp.eppFreePages + pages.length then none
  else
    -- LASSERT(page_pools.epp_pools[p_idx])
    match pp.eppPools pIdx with
    | none => none
    | some _ =>
      (putLoop pages pp.eppPools pIdx gIdx).map fun pools =>
        { pp with eppFreePages := pp.eppFreePages + pages.length, eppPools := pools }

/-! ## Adding pages -/

/-- Step (1) of `enc_pools_insert`: fill `freeslot` free slots of the pools,
from slot `(opIdx, ogIdx)` up, with the pages of the new pool arrays from slot
`(npIdx, ngIdx)` down, stopping early when the new pages run out. -/
def fillLoop : Nat → (Nat → Option (Nat → Option Nat)) → (Nat → Option (Nat → Option Nat)) → Nat → Nat → Nat →
    Nat → Option ((Nat → Option (Nat → Option Nat)) × (Nat → Option (Nat → Option Nat)))
  | 0, pools, newPools, _, _, _, _ => some (pools, newPools)
  | freeslot + 1, pools, newPools, opIdx, ogIdx, npIdx, ngIdx =>
    -- LASSERT(page_pools.epp_pools[op_idx][og_idx] == NULL)
    match pools opIdx with
    | none => none
    | some pool =>
      match pool ogIdx with
      | some _ => none
      | none =>
        -- LASSERT(pools[np_idx][ng_idx] != NULL)
        match newPools npIdx with
        | none => none
        | some newPool =>
          match newPool ngIdx with
          | none => none
          | some page =>
            let pools := setSlot pools opIdx ogIdx (some page)
            let newPools := setSlot newPools npIdx ngIdx none
            -- if (--ng_idx < 0) { if (np_idx == 0) break; np_idx--; ng_idx = PAGES_PER_POOL - 1; }
            if ngIdx = 0 then
              if npIdx = 0 then some (pools, newPools)
              else fillLoop freeslot pools newPools (advance opIdx ogIdx).1 (advance opIdx ogIdx).2 (npIdx - 1)
                (pagesPerPool - 1)
            else fillLoop freeslot pools newPools (advance opIdx ogIdx).1 (advance opIdx ogIdx).2 npIdx (ngIdx - 1)

/-- Step (2) of `enc_pools_insert`: append `count` new pool arrays from
`npIdx` on as the pool arrays from `curNpools` on. -/
def appendLoop : Nat → (Nat → Option (Nat → Option Nat)) → (Nat → Option (Nat → Option Nat)) → Nat → Nat → Nat →
    Option ((Nat → Option (Nat → Option Nat)) × (Nat → Option (Nat → Option Nat)))
  | 0, pools, newPools, _, _, _ => some (pools, newPools)
  | count + 1, pools, newPools, npools, curNpools, npIdx =>
    -- LASSERT(page_pools.epp_pools[cur_npools] == NULL); LASSERT(np_idx < npools); LASSERT(pools[np_idx] != NULL)
    match pools curNpools, newPools npIdx with
    | none, some newPool =>
      if npIdx < npools then
        appendLoop count (Function.update pools curNpools (some newPool)) (Function.update newPools npIdx none)
          npools (curNpools + 1) (npIdx + 1)
      else none
    | _, _ => none

/-- `enc_pools_insert(pools, npools, npages)`: the page pools, and the new
pool arrays with what it left in them. -/
def encPoolsInsert (pp : PagePools) (newPools : Nat → Option (Nat → Option Nat)) (npools npages : Nat) :
    Option (PagePools × (Nat → Option (Nat → Option Nat))) :=
  -- LASSERT(npages > 0); LASSERT(epp_total_pages + npages <= epp_max_pages);
  -- LASSERT(npages_to_npools(npages) == npools); LASSERT(page_pools.epp_growing)
  if npages = 0 ∨ pp.eppMaxPages < pp.eppTotalPages + npages ∨ npagesToNpools npages ≠ npools ∨
      !pp.eppGrowing then none
  else
    -- (1) fill all the free slots of current pools
    let tail := pp.eppTotalPages % pagesPerPool
    let freeslot := (if tail ≠ 0 then pagesPerPool - tail else 0) + (pp.eppTotalPages - pp.eppFreePages)
    (fillLoop freeslot pp.eppPools newPools (pp.eppFreePages / pagesPerPool) (pp.eppFreePages % pagesPerPool)
        (npools - 1) ((npages - 1) % pagesPerPool)).bind fun filled =>
      -- (2) add pools if needed
      let curNpools := (pp.eppTotalPages + pagesPerPool - 1) / pagesPerPool
      let endNpools := (pp.eppTotalPages + npages + pagesPerPool - 1) / pagesPerPool
      -- LASSERT(end_npools <= page_pools.epp_max_pools)
      if pp.eppMaxPools < endNpools then none
      else
        (appendLoop (endNpools - curNpools) filled.1 filled.2 npools curNpools 0).map fun appended =>
          ({ pp with
              eppTotalPages := pp.eppTotalPages + npages
              eppFreePages := pp.eppFreePages + npages
              eppPools := appended.1 }, appended.2)

/-- The new pool arrays `enc_pools_add_pages` allocates for `npages` pages
numbered from `first`. -/
def newPoolArrays (first npools npages : Nat) : Nat → Option (Nat → Option Nat) := fun k =>
  if k < npools then
    some fun j => if j < pagesPerPool ∧ k * pagesPerPool + j < npages then some (first + k * pagesPerPool + j) else none
  else none

/-- `enc_pools_add_pages(npages)` with `epp_growing` set, for the pages
numbered from `first`: the return code, the page pools, and the pages it
hands back to the page allocator (those `enc_pools_cleanup` frees).  When an
allocation fails (`fails`) everything allocated is freed and the pools are
left as they were. -/
def encPoolsAddPages (pp : PagePools) (npages first : Nat) (fails : Bool) : Option (Int × PagePools × Nat) :=
  let npages := max npages ptlrpcMaxBrwPages
  let npages := if pp.eppMaxPages < npages + pp.eppTotalPages then pp.eppMaxPages - pp.eppTotalPages else npages
  -- LASSERT(npages > 0)
  if npages = 0 then none
  else if fails then some (-12, pp, 0)
  else
    let npools := npagesToNpools npages
    (encPoolsInsert pp (newPoolArrays first npools npages) npools npages).map fun inserted =>
      (0, inserted.1, (List.range (npools * pagesPerPool)).countP fun i => (slotAt inserted.2 i).isSome)

/-- `sptlrpc_enc_pool_init()` with `epp_max_pages = maxPages`: no pages and
no pool arrays. -/
def sptlrpcEncPoolInit (maxPages : Nat) : PagePools :=
  ⟨maxPages, npagesToNpools maxPages, false, 0, 0, fun _ => none⟩

/-- `enc_pools_should_grow` grows exactly when no thread grows the pools and
they are below their maximum: the size of the request does not matter. -/
theorem encPoolsShouldGrow_eq_true {pp : PagePools} {pageNeeded : Nat} :
    encPoolsShouldGrow pp pageNeeded = true ↔ pp.eppGrowing = false ∧ pp.eppTotalPages ≠ pp.eppMaxPages := by
  unfold encPoolsShouldGrow
  cases pp.eppGrowing <;> by_cases full : pp.eppTotalPages = pp.eppMaxPages <;> simp [full]

/-! ## Slots of the stack -/

/-- Stepping the pair `(p_idx, g_idx)` steps the slot it names. -/
theorem advance_flat (i : Nat) :
    advance (i / pagesPerPool) (i % pagesPerPool) = ((i + 1) / pagesPerPool, (i + 1) % pagesPerPool) := by
  unfold advance
  rw [pagesPerPool_eq]
  split_ifs with last <;> rw [Prod.mk.injEq] <;> constructor <;> omega

@[simp] theorem setSlot_isSome (pools : Nat → Option (Nat → Option Nat)) (pIdx gIdx : Nat) (v : Option Nat)
    (k : Nat) : (setSlot pools pIdx gIdx v k).isSome = (pools k).isSome := by
  unfold setSlot
  rcases eq_or_ne k pIdx with rfl | other
  · rw [Function.update_self, Option.isSome_map]
  · rw [Function.update_of_ne other]

theorem slotAt_isSome {pools : Nat → Option (Nat → Option Nat)} {i : Nat} (filled : (slotAt pools i).isSome) :
    (pools (i / pagesPerPool)).isSome := by
  simp only [slotAt_eq] at filled
  cases allocated : pools (i / pagesPerPool) with
  | none => rw [allocated, Option.bind_none] at filled; exact absurd filled (by decide)
  | some _ => rfl

/-- A store into slot `i` of an allocated pool array changes slot `i` and no
other. -/
theorem slotAt_setSlot (pools : Nat → Option (Nat → Option Nat)) {i : Nat} (v : Option Nat)
    (allocated : (pools (i / pagesPerPool)).isSome) :
    slotAt (setSlot pools (i / pagesPerPool) (i % pagesPerPool) v) = Function.update (slotAt pools) i v := by
  obtain ⟨pool, atPool⟩ := Option.isSome_iff_exists.1 allocated
  funext j
  by_cases samePool : j / pagesPerPool = i / pagesPerPool
  · rcases eq_or_ne j i with rfl | other
    · simp only [slotAt_eq, setSlot, Function.update_self, atPool, Option.map_some, Option.bind_some]
    · have otherSlot : j % pagesPerPool ≠ i % pagesPerPool := by
        rw [pagesPerPool_eq] at samePool ⊢
        omega
      simp only [slotAt_eq, setSlot, samePool, Function.update_self, atPool, Option.map_some, Option.bind_some,
        Function.update_of_ne otherSlot, Function.update_of_ne other]
  · have other : j ≠ i := fun same => samePool (by rw [same])
    simp only [slotAt_eq, setSlot, Function.update_of_ne samePool, Function.update_of_ne other]

/-- Slot `i` reads only its own pool array. -/
theorem slotAt_congr {pools pools' : Nat → Option (Nat → Option Nat)} {i : Nat}
    (same : pools' (i / pagesPerPool) = pools (i / pagesPerPool)) : slotAt pools' i = slotAt pools i := by
  rw [slotAt_eq, same, slotAt_eq]

/-- Slot `i` of pool arrays appended from index `c` on is slot
`i - c * PAGES_PER_POOL` of the arrays appended. -/
theorem slotAt_shift {pools pools' : Nat → Option (Nat → Option Nat)} {i c : Nat} (above : c * pagesPerPool ≤ i)
    (same : pools (i / pagesPerPool) = pools' (i / pagesPerPool - c)) :
    slotAt pools i = slotAt pools' (i - c * pagesPerPool) := by
  have div : (i - c * pagesPerPool) / pagesPerPool = i / pagesPerPool - c := by
    rw [pagesPerPool_eq] at above ⊢
    omega
  have mod : (i - c * pagesPerPool) % pagesPerPool = i % pagesPerPool := by
    rw [pagesPerPool_eq] at above ⊢
    omega
  rw [slotAt_eq, same, slotAt_eq, div, mod]

theorem newPoolArrays_isSome (first npools npages k : Nat) :
    (newPoolArrays first npools npages k).isSome ↔ k < npools := by
  unfold newPoolArrays
  split_ifs with inside <;> simp [inside]

/-- Flat slot `j` of the new pool arrays holds page `first + j`, up to
`npages`. -/
theorem slotAt_newPoolArrays (first npages j : Nat) :
    slotAt (newPoolArrays first (npagesToNpools npages) npages) j = if j < npages then some (first + j) else none := by
  unfold newPoolArrays npagesToNpools
  simp only [slotAt_eq]
  rw [pagesPerPool_eq]
  by_cases below : j < npages
  · rw [if_pos (by omega), Option.bind_some, if_pos below]
    dsimp only
    rw [if_pos (show j % 512 < 512 ∧ j / 512 * 512 + j % 512 < npages by omega)]
    congr 1
    omega
  · rw [if_neg below]
    split_ifs
    · rw [Option.bind_some]
      dsimp only
      rw [if_neg (show ¬(j % 512 < 512 ∧ j / 512 * 512 + j % 512 < npages) by omega)]
    · rfl

/-- The loop of `sptlrpc_enc_pool_get_pages` over `n` filled slots from `i`
on empties them, keeps the pool arrays, and hands out their pages in order. -/
theorem takeLoop_spec (n : Nat) : ∀ (pools : Nat → Option (Nat → Option Nat)) (i : Nat),
    (∀ j, i ≤ j → j < i + n → (slotAt pools j).isSome) →
    ∃ pools' pages, takeLoop n pools (i / pagesPerPool) (i % pagesPerPool) = some (pools', pages) ∧
      (∀ k, (pools' k).isSome = (pools k).isSome) ∧
      (∀ j, slotAt pools' j = if i ≤ j ∧ j < i + n then none else slotAt pools j) ∧
      pages.map some = (List.range n).map fun k => slotAt pools (i + k) := by
  -- on the pages left, from the slot the loop is at
  induction n with
  | zero =>
    intro pools i _
    exact ⟨pools, [], rfl, fun _ => rfl, fun j => by rw [if_neg (by omega)], rfl⟩
  | succ n ih =>
    intro pools i filled
    have here := filled i le_rfl (by omega)
    obtain ⟨pool, atPool⟩ := Option.isSome_iff_exists.1 (slotAt_isSome here)
    obtain ⟨page, atSlot⟩ : ∃ page, pool (i % pagesPerPool) = some page := by
      simp only [slotAt_eq] at here
      rw [atPool, Option.bind_some] at here
      exact Option.isSome_iff_exists.1 here
    have cleared := slotAt_setSlot pools none (slotAt_isSome here)
    obtain ⟨pools', pages, ran, kept, slots, taken⟩ :=
      ih (setSlot pools (i / pagesPerPool) (i % pagesPerPool) none) (i + 1) fun j above below => by
        rw [cleared, Function.update_of_ne (by omega)]
        exact filled j (by omega) (by omega)
    refine ⟨pools', page :: pages, ?_, fun k => by rw [kept, setSlot_isSome], fun j => ?_, ?_⟩
    · rw [takeLoop_succ, atPool]
      simp only [atSlot, advance_flat, ran, Option.map_some]
    · rw [slots, cleared]
      rcases eq_or_ne j i with rfl | other
      · rw [if_neg (by omega), Function.update_self, if_pos (by omega)]
      · rw [Function.update_of_ne other]
        by_cases inside : i + 1 ≤ j ∧ j < i + 1 + n
        · rw [if_pos inside, if_pos (by omega)]
        · rw [if_neg inside, if_neg (by omega)]
    · -- the first page is that of slot `i`, the others those after it
      have first : slotAt pools i = some page := by rw [slotAt_eq, atPool, Option.bind_some, atSlot]
      rw [List.map_cons, taken, List.range_succ_eq_map, List.map_cons, List.map_map]
      refine congrArg₂ List.cons (by rw [Nat.add_zero, first]) (List.map_congr_left fun k _ => ?_)
      rw [Function.comp_apply, cleared, Function.update_of_ne (by omega), Nat.succ_eq_add_one, Nat.add_comm k 1,
        Nat.add_assoc]

/-- The page loop of `enc_pools_release_free_pages` is that of
`sptlrpc_enc_pool_get_pages` with the pages dropped. -/
theorem releaseLoop_eq_takeLoop (n : Nat) : ∀ (pools : Nat → Option (Nat → Option Nat)) (pIdx gIdx : Nat),
    releaseLoop n pools pIdx gIdx = (takeLoop n pools pIdx gIdx).map Prod.fst := by
  induction n with
  | zero => intro pools pIdx gIdx; rfl
  | succ n ih =>
    intro pools pIdx gIdx
    rw [releaseLoop_succ, takeLoop_succ]
    cases pools pIdx with
    | none => rfl
    | some pool =>
      dsimp only
      cases pool gIdx with
      | none => rfl
      | some page =>
        dsimp only
        rw [ih, Option.map_map]
        rfl

/-- The page loop of `enc_pools_release_free_pages` over `n` filled slots
from `i` on empties them and keeps the pool arrays. -/
theorem releaseLoop_spec (n : Nat) (pools : Nat → Option (Nat → Option Nat)) (i : Nat)
    (filled : ∀ j, i ≤ j → j < i + n → (slotAt pools j).isSome) :
    ∃ pools', releaseLoop n pools (i / pagesPerPool) (i % pagesPerPool) = some pools' ∧
      (∀ k, (pools' k).isSome = (pools k).isSome) ∧
      ∀ j, slotAt pools' j = if i ≤ j ∧ j < i + n then none else slotAt pools j := by
  obtain ⟨pools', _, ran, kept, slots, -⟩ := takeLoop_spec n pools i filled
  exact ⟨pools', by rw [releaseLoop_eq_takeLoop, ran, Option.map_some], kept, slots⟩

/-- The loop of `sptlrpc_enc_pool_put_pages` over empty slots of allocated
pool arrays from `i` on puts the pages there in order. -/
theorem putLoop_spec (pages : List Nat) : ∀ (pools : Nat → Option (Nat → Option Nat)) (i : Nat),
    (∀ j, i ≤ j → j < i + pages.length → (pools (j / pagesPerPool)).isSome ∧ slotAt pools j = none) →
    ∃ pools', putLoop pages pools (i / pagesPerPool) (i % pagesPerPool) = some pools' ∧
      (∀ k, (pools' k).isSome = (pools k).isSome) ∧
      ∀ j, slotAt pools' j = if i ≤ j ∧ j < i + pages.length then pages[j - i]? else slotAt pools j := by
  -- on the pages left to put, from the slot the loop is at
  induction pages with
  | nil =>
    intro pools i _
    exact ⟨pools, rfl, fun _ => rfl, fun j => by rw [if_neg (by simp)]⟩
  | cons page pages ih =>
    intro pools i empty
    obtain ⟨allocated, vacant⟩ := empty i le_rfl (by simp)
    obtain ⟨pool, atPool⟩ := Option.isSome_iff_exists.1 allocated
    have vacantSlot : pool (i % pagesPerPool) = none := by rwa [slotAt_eq, atPool, Option.bind_some] at vacant
    have stored := slotAt_setSlot pools (some page) allocated
    obtain ⟨pools', ran, kept, slots⟩ :=
      ih (setSlot pools (i / pagesPerPool) (i % pagesPerPool) (some page)) (i + 1) fun j above below => by
        rw [stored, Function.update_of_ne (by omega), setSlot_isSome]
        exact empty j (by omega) (by simp; omega)
    refine ⟨pools', ?_, fun k => by rw [kept, setSlot_isSome], fun j => ?_⟩
    · rw [putLoop_cons, atPool]
      simp only [vacantSlot, advance_flat]
      exact ran
    · rw [slots, stored]
      rcases eq_or_ne j i with rfl | other
      · rw [if_neg (by omega), Function.update_self, if_pos (by simp), Nat.sub_self, List.getElem?_cons_zero]
      · rw [Function.update_of_ne other]
        by_cases inside : i + 1 ≤ j ∧ j < i + 1 + pages.length
        · rw [if_pos inside, if_pos (by simp; omega), show j - i = j - (i + 1) + 1 by omega,
            List.getElem?_cons_succ]
        · rw [if_neg inside, if_neg (by simp; omega)]

/-- The pool loop of `enc_pools_release_free_pages` frees the `count`
allocated pool arrays that end at `top`. -/
theorem freePoolsLoop_spec (count : Nat) : ∀ (pools : Nat → Option (Nat → Option Nat)) (top : Nat),
    count ≤ top + 1 → (∀ k, top + 1 - count ≤ k → k ≤ top → (pools k).isSome) →
    ∃ pools', freePoolsLoop count pools top = some pools' ∧
      ∀ k, pools' k = if top + 1 - count ≤ k ∧ k ≤ top then none else pools k := by
  -- on the pool arrays left, from the top one down
  induction count with
  | zero =>
    intro pools top _ _
    exact ⟨pools, rfl, fun k => by rw [if_neg (by omega)]⟩
  | succ count ih =>
    intro pools top enough allocated
    obtain ⟨pool, atTop⟩ := Option.isSome_iff_exists.1 (allocated top (by omega) le_rfl)
    obtain ⟨pools', ran, freed⟩ := ih (Function.update pools top none) (top - 1) (by omega) fun k above below => by
      rw [Function.update_of_ne (by omega)]
      exact allocated k (by omega) (by omega)
    refine ⟨pools', by rw [freePoolsLoop_succ, atTop]; exact ran, fun k => ?_⟩
    rw [freed]
    rcases eq_or_ne k top with rfl | other
    · -- the top one is freed by this round
      rw [if_pos (show k + 1 - (count + 1) ≤ k ∧ k ≤ k by omega)]
      split_ifs
      · rfl
      · exact Function.update_self ..
    · rw [Function.update_of_ne other]
      by_cases inside : top - 1 + 1 - count ≤ k ∧ k ≤ top - 1
      · rw [if_pos inside, if_pos (by omega)]
      · rw [if_neg inside, if_neg (by omega)]

/-- One move of the first loop of `enc_pools_insert`, in flat slots: the
page of new slot `m` goes to old slot `o`, and the loop goes on one slot up
and one down unless `m` was the first new slot. -/
theorem fillLoop_step {count : Nat} {pools newPools : Nat → Option (Nat → Option Nat)} {o m : Nat}
    {pool newPool : Nat → Option Nat} {page : Nat} (atPool : pools (o / pagesPerPool) = some pool)
    (vacant : pool (o % pagesPerPool) = none) (atNew : newPools (m / pagesPerPool) = some newPool)
    (atPage : newPool (m % pagesPerPool) = some page) :
    fillLoop (count + 1) pools newPools (o / pagesPerPool) (o % pagesPerPool) (m / pagesPerPool) (m % pagesPerPool) =
      if m = 0 then
        some (setSlot pools (o / pagesPerPool) (o % pagesPerPool) (some page),
          setSlot newPools (m / pagesPerPool) (m % pagesPerPool) none)
      else
        fillLoop count (setSlot pools (o / pagesPerPool) (o % pagesPerPool) (some page))
          (setSlot newPools (m / pagesPerPool) (m % pagesPerPool) none) ((o + 1) / pagesPerPool)
          ((o + 1) % pagesPerPool) ((m - 1) / pagesPerPool) ((m - 1) % pagesPerPool) := by
  rw [fillLoop, atPool]
  simp only [vacant, atNew, atPage, advance_flat]
  -- `--ng_idx < 0` steps the pair `(np_idx, ng_idx)` down one slot, or breaks at slot 0
  by_cases first : m = 0
  · subst first
    simp
  · rw [if_neg first]
    have ppp := pagesPerPool_eq
    split_ifs with low high
    · exact absurd (Nat.div_add_mod m pagesPerPool) (by rw [high, low, ppp]; omega)
    · congr 1 <;> rw [ppp] at * <;> omega
    · congr 1 <;> rw [ppp] at * <;> omega

/-- The first loop of `enc_pools_insert` moves `min count (m + 1)` pages, the
one of new slot `m - r` to old slot `o + r`, when those old slots are empty
slots of allocated pool arrays and those new slots hold pages. -/
theorem fillLoop_spec (count : Nat) : ∀ (pools newPools : Nat → Option (Nat → Option Nat)) (o m : Nat),
    (∀ r, r < count → r ≤ m → (pools ((o + r) / pagesPerPool)).isSome ∧ slotAt pools (o + r) = none ∧
      (slotAt newPools (m - r)).isSome) →
    ∃ pools' newPools', fillLoop count pools newPools (o / pagesPerPool) (o % pagesPerPool) (m / pagesPerPool)
        (m % pagesPerPool) = some (pools', newPools') ∧
      (∀ k, (pools' k).isSome = (pools k).isSome) ∧ (∀ k, (newPools' k).isSome = (newPools k).isSome) ∧
      (∀ j, slotAt pools' j =
        if o ≤ j ∧ j < o + count ∧ j ≤ o + m then slotAt newPools (m - (j - o)) else slotAt pools j) ∧
      ∀ j, slotAt newPools' j = if j ≤ m ∧ m < j + count then none else slotAt newPools j := by
  -- on the moves left, the old slot stepping up and the new one down
  induction count with
  | zero =>
    intro pools newPools o m _
    exact ⟨pools, newPools, rfl, fun _ => rfl, fun _ => rfl, fun j => by rw [if_neg (by omega)],
      fun j => by rw [if_neg (by omega)]⟩
  | succ count ih =>
    intro pools newPools o m moves
    obtain ⟨allocated, vacant, stocked⟩ := moves 0 (by omega) (Nat.zero_le m)
    rw [Nat.add_zero] at allocated vacant
    rw [Nat.sub_zero] at stocked
    obtain ⟨pool, atPool⟩ := Option.isSome_iff_exists.1 allocated
    obtain ⟨newPool, atNew⟩ := Option.isSome_iff_exists.1 (slotAt_isSome stocked)
    have vacantSlot : pool (o % pagesPerPool) = none := by rwa [slotAt_eq, atPool, Option.bind_some] at vacant
    obtain ⟨page, atPage⟩ : ∃ page, newPool (m % pagesPerPool) = some page := by
      rw [slotAt_eq, atNew, Option.bind_some] at stocked
      exact Option.isSome_iff_exists.1 stocked
    have moved : slotAt newPools m = some page := by rw [slotAt_eq, atNew, Option.bind_some, atPage]
    have filled := slotAt_setSlot pools (some page) allocated
    have drained := slotAt_setSlot newPools none (slotAt_isSome stocked)
    rw [fillLoop_step atPool vacantSlot atNew atPage]
    by_cases last : m = 0
    · -- the page of new slot 0 is moved, and the loop breaks
      subst last
      refine ⟨_, _, if_pos rfl, setSlot_isSome _ _ _ _, setSlot_isSome _ _ _ _, fun j => ?_, fun j => ?_⟩
      · rw [filled]
        rcases eq_or_ne j o with rfl | other
        · rw [Function.update_self, if_pos (by omega), Nat.sub_self, moved]
        · rw [Function.update_of_ne other, if_neg (by omega)]
      · rw [drained]
        rcases eq_or_ne j 0 with rfl | other
        · rw [Function.update_self, if_pos (by omega)]
        · rw [Function.update_of_ne other, if_neg (by omega)]
    · rw [if_neg last]
      obtain ⟨pools', newPools', ran, kept, keptNew, slots, newSlots⟩ :=
        ih (setSlot pools (o / pagesPerPool) (o % pagesPerPool) (some page))
          (setSlot newPools (m / pagesPerPool) (m % pagesPerPool) none) (o + 1) (m - 1) fun r below within => by
          obtain ⟨allocated', vacant', stocked'⟩ := moves (r + 1) (by omega) (by omega)
          refine ⟨by rw [setSlot_isSome, Nat.add_right_comm]; exact allocated', ?_, ?_⟩
          · rw [filled, Function.update_of_ne (by omega), Nat.add_right_comm]
            exact vacant'
          · rw [drained, Function.update_of_ne (by omega), Nat.sub_sub, Nat.add_comm 1 r]
            exact stocked'
      refine ⟨pools', newPools', ran, fun k => by rw [kept, setSlot_isSome],
        fun k => by rw [keptNew, setSlot_isSome], fun j => ?_, fun j => ?_⟩
      · rw [slots, filled]
        rcases eq_or_ne j o with rfl | other
        · rw [if_neg (by omega), Function.update_self, if_pos (by omega), Nat.sub_self, Nat.sub_zero, moved]
        · rw [Function.update_of_ne other]
          by_cases inside : o ≤ j ∧ j < o + (count + 1) ∧ j ≤ o + m
          · rw [if_pos (by omega), if_pos inside, drained, Function.update_of_ne (by omega)]
            congr 1
            omega
          · rw [if_neg (by omega), if_neg inside]
      · rw [newSlots, drained]
        rcases eq_or_ne j m with rfl | other
        · rw [if_neg (by omega), Function.update_self, if_pos (by omega)]
        · rw [Function.update_of_ne other]
          by_cases inside : j ≤ m ∧ m < j + (count + 1)
          · rw [if_pos (by omega), if_pos inside]
          · rw [if_neg (by omega), if_neg inside]

/-- The second loop of `enc_pools_insert` moves the `count` new pool arrays
from `np` on to the empty pool array slots from `cur` on. -/
theorem appendLoop_spec (count : Nat) : ∀ (pools newPools : Nat → Option (Nat → Option Nat)) (npools cur np : Nat),
    (∀ i, i < count → pools (cur + i) = none ∧ (newPools (np + i)).isSome ∧ np + i < npools) →
    ∃ pools' newPools', appendLoop count pools newPools npools cur np = some (pools', newPools') ∧
      (∀ k, pools' k = if cur ≤ k ∧ k < cur + count then newPools (np + (k - cur)) else pools k) ∧
      ∀ k, newPools' k = if np ≤ k ∧ k < np + count then none else newPools k := by
  -- on the pool arrays left to append
  induction count with
  | zero =>
    intro pools newPools npools cur np _
    exact ⟨pools, newPools, rfl, fun k => by rw [if_neg (by omega)], fun k => by rw [if_neg (by omega)]⟩
  | succ count ih =>
    intro pools newPools npools cur np appendable
    obtain ⟨empty, stocked, within⟩ := appendable 0 (by omega)
    rw [Nat.add_zero] at empty stocked within
    obtain ⟨newPool, atNew⟩ := Option.isSome_iff_exists.1 stocked
    obtain ⟨pools', newPools', ran, slots, newSlots⟩ := ih (Function.update pools cur (some newPool))
      (Function.update newPools np none) npools (cur + 1) (np + 1) fun i below => by
        obtain ⟨empty', stocked', within'⟩ := appendable (i + 1) (by omega)
        rw [Function.update_of_ne (by omega), Function.update_of_ne (by omega), Nat.add_right_comm,
          Nat.add_right_comm np]
        exact ⟨empty', stocked', by omega⟩
    refine ⟨pools', newPools', ?_, fun k => ?_, fun k => ?_⟩
    · rw [appendLoop, empty, atNew]
      simp only [if_pos within, ran]
    · rw [slots]
      rcases eq_or_ne k cur with rfl | other
      · rw [if_neg (by omega), Function.update_self, if_pos (by omega), Nat.sub_self, Nat.add_zero, atNew]
      · rw [Function.update_of_ne other]
        by_cases inside : cur ≤ k ∧ k < cur + (count + 1)
        · rw [if_pos (by omega), if_pos inside, Function.update_of_ne (by omega)]
          congr 1
          omega
        · rw [if_neg (by omega), if_neg inside]
    · rw [newSlots]
      rcases eq_or_ne k np with rfl | other
      · rw [if_neg (by omega), Function.update_self, if_pos (by omega)]
      · rw [Function.update_of_ne other]
        by_cases inside : np ≤ k ∧ k < np + (count + 1)
        · rw [if_pos (by omega), if_pos inside]
        · rw [if_neg (by omega), if_neg inside]

/-! ## The layout -/

/-- The layout of the stack: `epp_free_pages <= epp_total_pages <=
epp_max_pages`, `epp_max_pools` pool arrays are room for `epp_max_pages`
pages, the pool arrays below `npages_to_npools(epp_total_pages)` are
allocated and no other, and slot `i` holds a page iff `i < epp_free_pages`. -/
structure Consistent (pp : PagePools) : Prop where
  freeLe : pp.eppFreePages ≤ pp.eppTotalPages
  totalLe : pp.eppTotalPages ≤ pp.eppMaxPages
  maxPools : npagesToNpools pp.eppMaxPages ≤ pp.eppMaxPools
  allocated : ∀ k, (pp.eppPools k).isSome ↔ k < npagesToNpools pp.eppTotalPages
  filled : ∀ i, (slotAt pp.eppPools i).isSome ↔ i < pp.eppFreePages

/-- The pools `sptlrpc_enc_pool_init` sets up are consistent. -/
theorem consistent_sptlrpcEncPoolInit (maxPages : Nat) : Consistent (sptlrpcEncPoolInit maxPages) where
  freeLe := le_rfl
  totalLe := Nat.zero_le _
  maxPools := le_rfl
  allocated k := by simp [sptlrpcEncPoolInit, npagesToNpools]
  filled i := by simp [sptlrpcEncPoolInit, slotAt_eq]

theorem npagesToNpools_eq {total : Nat} (pos : 0 < total) :
    npagesToNpools total = (total - 1) / pagesPerPool + 1 := by
  unfold npagesToNpools
  rw [pagesPerPool_eq]
  omega

/-- The pages on the stack, from slot 0 up to `epp_free_pages`. -/
def stackPages (pp : PagePools) : List Nat := (List.range pp.eppFreePages).filterMap (slotAt pp.eppPools)

/-- The slots below `free` are those below `free - count` and the `count`
above them. -/
theorem filterMap_range_split (f : Nat → Option Nat) {free count : Nat} (le : count ≤ free) :
    (List.range free).filterMap f =
      (List.range (free - count)).filterMap f ++ (List.range count).filterMap fun k => f (free - count + k) := by
  conv_lhs => rw [← Nat.sub_add_cancel le, List.range_add, List.filterMap_append, List.filterMap_map]
  rfl

/-- A list of filled slots read off in order is the list of their pages. -/
theorem filterMap_of_map_some {pages : List Nat} {slots : List Nat} {g : Nat → Option Nat}
    (read : pages.map some = slots.map g) : slots.filterMap g = pages := by
  calc slots.filterMap g = (slots.map g).filterMap id := by rw [List.filterMap_map]; rfl
    _ = (pages.map some).filterMap id := by rw [read]
    _ = pages := by rw [List.filterMap_map]; exact List.filterMap_some

theorem map_getElem?_range (pages : List Nat) : (List.range pages.length).map (pages[·]?) = pages.map some := by
  refine List.ext_getElem (by simp) fun k inRange _ => ?_
  simp only [List.getElem_map, List.getElem_range]
  rw [List.length_map, List.length_range] at inRange
  exact List.getElem?_eq_getElem inRange

section Release

variable {pp : PagePools}

/-- `enc_pools_release_free_pages` of `n` of the free pages of consistent
pools pops them off the stack and frees the pool arrays past the new total. -/
theorem Consistent.release (consistent : Consistent pp) {n : Nat} (pos : 0 < n) (enough : n ≤ pp.eppFreePages) :
    ∃ pp', encPoolsReleaseFreePages pp n = some pp' ∧ Consistent pp' ∧
      pp'.eppFreePages = pp.eppFreePages - n ∧ pp'.eppTotalPages = pp.eppTotalPages - n ∧
      pp'.eppMaxPages = pp.eppMaxPages ∧ pp'.eppGrowing = pp.eppGrowing ∧
      (stackPages pp').Sublist (stackPages pp) := by
  have freeLe := consistent.freeLe
  have guard : ¬((n : Int) ≤ 0 ∨ (pp.eppFreePages : Int) < n ∨ pp.eppTotalPages < pp.eppFreePages) := by omega
  -- the slots popped are the top `n` filled ones
  obtain ⟨pools₁, popped, kept₁, slots₁⟩ := releaseLoop_spec n pp.eppPools (pp.eppFreePages - n)
    fun j _ below => (consistent.filled j).2 (by omega)
  have firstPool : (pp.eppPools ((pp.eppFreePages - n) / pagesPerPool)).isSome := by
    rw [consistent.allocated, npagesToNpools_eq (by omega), pagesPerPool_eq]
    omega
  obtain ⟨pool, atFirst⟩ := Option.isSome_iff_exists.1 firstPool
  -- the pool arrays freed are those past the new total
  have countEq : (((pp.eppTotalPages - 1) / pagesPerPool : Nat) - (if pp.eppTotalPages - n = 0 then -1
      else (((pp.eppTotalPages - n - 1) / pagesPerPool : Nat) : Int))).toNat =
      npagesToNpools pp.eppTotalPages - npagesToNpools (pp.eppTotalPages - n) := by
    unfold npagesToNpools
    rw [pagesPerPool_eq]
    split_ifs <;> omega
  have topEq := npagesToNpools_eq (show 0 < pp.eppTotalPages by omega)
  obtain ⟨pools₂, freed, pools₂Eq⟩ := freePoolsLoop_spec
    (npagesToNpools pp.eppTotalPages - npagesToNpools (pp.eppTotalPages - n)) pools₁
    ((pp.eppTotalPages - 1) / pagesPerPool) (by omega) fun k above below => by
      rw [kept₁, consistent.allocated]
      omega
  have bottomEq : (pp.eppTotalPages - 1) / pagesPerPool + 1 -
      (npagesToNpools pp.eppTotalPages - npagesToNpools (pp.eppTotalPages - n)) =
      npagesToNpools (pp.eppTotalPages - n) := by
    unfold npagesToNpools at topEq ⊢
    rw [pagesPerPool_eq] at topEq ⊢
    omega
  rw [bottomEq] at pools₂Eq
  -- a slot below the new total lies in a pool array that is kept
  have keptBelow : ∀ i, i < pp.eppTotalPages - n → pools₂ (i / pagesPerPool) = pools₁ (i / pagesPerPool) := by
    intro i inside
    rw [pools₂Eq, if_neg]
    unfold npagesToNpools
    rw [pagesPerPool_eq]
    omega
  refine ⟨{ pp with eppFreePages := pp.eppFreePages - n, eppTotalPages := pp.eppTotalPages - n, eppPools := pools₂ },
    ?_, ⟨?_, ?_, consistent.maxPools, fun k => ?_, fun i => ?_⟩, rfl, rfl, rfl, rfl, ?_⟩ <;> try dsimp only
  · unfold encPoolsReleaseFreePages
    rw [if_neg guard]
    simp only [Int.toNat_natCast, atFirst, popped, Option.bind_some, countEq, freed, Option.map_some]
  · omega
  · have := consistent.totalLe
    omega
  · -- the pool arrays kept are those below the new count
    rw [pools₂Eq]
    split_ifs with inside
    · simp only [Option.isSome_none, Bool.false_eq_true, false_iff, not_lt]
      exact inside.1
    · rw [kept₁, consistent.allocated]
      omega
  · -- the slots filled are those below the new free count
    by_cases below : i < pp.eppTotalPages - n
    · rw [slotAt_congr (keptBelow i below), slots₁]
      split_ifs with popping
      · simp only [Option.isSome_none, Bool.false_eq_true, false_iff, not_lt]
        exact popping.1
      · rw [consistent.filled]
        omega
    · -- above the new total: in a freed pool array, or an empty slot of a kept one
      have notFree : ¬ i < pp.eppFreePages - n := by omega
      by_cases freedPool : npagesToNpools (pp.eppTotalPages - n) ≤ i / pagesPerPool ∧
          i / pagesPerPool ≤ (pp.eppTotalPages - 1) / pagesPerPool
      · have gone : pools₂ (i / pagesPerPool) = none := by rw [pools₂Eq, if_pos freedPool]
        simp only [slotAt_eq, gone, Option.bind_none, Option.isSome_none, Bool.false_eq_true, notFree]
      · rw [slotAt_congr (by rw [pools₂Eq, if_neg freedPool]), slots₁]
        split_ifs with popping
        · simp only [Option.isSome_none, Bool.false_eq_true, notFree]
        · rw [consistent.filled]
          omega
  · -- the slots left are the bottom ones, as they were
    have bottom : ∀ j ∈ List.range (pp.eppFreePages - n), slotAt pools₂ j = slotAt pp.eppPools j := by
      intro j inRange
      rw [List.mem_range] at inRange
      rw [slotAt_congr (keptBelow j (by omega)), slots₁, if_neg (by omega)]
    unfold stackPages
    rw [filterMap_range_split _ enough, List.filterMap_congr bottom]
    exact List.sublist_append_left _ _

/-- The assertions of `enc_pools_release_free_pages` fail for a count that is
not positive or exceeds the free pages. -/
theorem encPoolsReleaseFreePages_eq_none {npages : Int} (bad : npages ≤ 0 ∨ (pp.eppFreePages : Int) < npages) :
    encPoolsReleaseFreePages pp npages = none := by
  rw [encPoolsReleaseFreePages, if_pos (by omega)]

theorem ulongToLong_of_lt {x : Nat} (small : x < 2 ^ 63) : ulongToLong x = x := by
  rw [ulongToLong, if_pos small]

/-- `enc_pools_shrink_scan` on consistent pools fails the assertion
`npages <= epp_free_pages` of `enc_pools_release_free_pages` exactly when
fewer than `PTLRPC_MAX_BRW_PAGES` pages are free and more than are free are
asked for; otherwise it releases what it returns and keeps the pools
consistent. -/
theorem Consistent.shrinkScan (consistent : Consistent pp) {nrToScan : Nat} (ulong : nrToScan < 2 ^ 64)
    (fits : pp.eppTotalPages < 2 ^ 63) :
    (encPoolsShrinkScan pp nrToScan = none ↔
      pp.eppFreePages < ptlrpcMaxBrwPages ∧ pp.eppFreePages < nrToScan) ∧
    ∀ pp' nr, encPoolsShrinkScan pp nrToScan = some (pp', nr) →
      Consistent pp' ∧ nr ≤ pp.eppFreePages ∧ pp'.eppFreePages = pp.eppFreePages - nr ∧
        pp'.eppTotalPages = pp.eppTotalPages - nr ∧ pp'.eppMaxPages = pp.eppMaxPages ∧
        pp'.eppGrowing = pp.eppGrowing ∧ (stackPages pp').Sublist (stackPages pp) := by
  have freeLe := consistent.freeLe
  -- `epp_free_pages - PTLRPC_MAX_BRW_PAGES` in `unsigned long`
  have wrapped : (pp.eppFreePages + 2 ^ 64 - ptlrpcMaxBrwPages) % 2 ^ 64 =
      if pp.eppFreePages < 1024 then pp.eppFreePages + 2 ^ 64 - 1024 else pp.eppFreePages - 1024 := by
    rw [ptlrpcMaxBrwPages_eq]
    split_ifs <;> omega
  unfold encPoolsShrinkScan
  rw [wrapped, ptlrpcMaxBrwPages_eq]
  by_cases crash : pp.eppFreePages < 1024 ∧ pp.eppFreePages < nrToScan
  · -- the wrapped difference lets `nr_to_scan` through, past the free pages
    rw [if_pos crash.1]
    have past : pp.eppFreePages < min nrToScan (pp.eppFreePages + 2 ^ 64 - 1024) := by omega
    have failed : encPoolsReleaseFreePages pp (ulongToLong (min nrToScan (pp.eppFreePages + 2 ^ 64 - 1024))) =
        none := by
      apply encPoolsReleaseFreePages_eq_none
      unfold ulongToLong
      split_ifs <;> omega
    rw [if_pos (by omega), failed, Option.map_none]
    exact ⟨iff_of_true rfl crash, fun _ _ impossible => absurd impossible (by simp)⟩
  · -- at most the free pages are released
    set nr := min nrToScan (if pp.eppFreePages < 1024 then pp.eppFreePages + 2 ^ 64 - 1024
      else pp.eppFreePages - 1024) with hNr
    have within : nr ≤ pp.eppFreePages := by
      rw [hNr]
      split_ifs <;> omega
    by_cases pos : 0 < nr
    · obtain ⟨pp', released, consistent', free', total', max', growing', popped⟩ := consistent.release pos within
      rw [if_pos pos, ulongToLong_of_lt (by omega), released, Option.map_some]
      refine ⟨iff_of_false (by simp) crash, fun pp'' nr' outcome => ?_⟩
      rw [Option.some.injEq, Prod.mk.injEq] at outcome
      rw [← outcome.1, ← outcome.2]
      exact ⟨consistent', within, free', total', max', growing', popped⟩
    · rw [if_neg pos]
      refine ⟨iff_of_false (by simp) crash, fun pp'' nr' outcome => ?_⟩
      rw [Option.some.injEq, Prod.mk.injEq] at outcome
      rw [← outcome.1, ← outcome.2]
      exact ⟨consistent, within, by omega, by omega, rfl, rfl, List.Sublist.refl _⟩

end Release

section Lending

variable {pp : PagePools}

/-- `sptlrpc_enc_pool_get_pages` on consistent pools with `count` pages free
pops the top `count` slots into the descriptor and keeps the pools
consistent. -/
theorem Consistent.getPages (consistent : Consistent pp) {count : Nat} (pos : 0 < count)
    (le : count ≤ pp.eppMaxPages) (enough : count ≤ pp.eppFreePages) :
    ∃ pp' pages, sptlrpcEncPoolGetPages pp count = some (pp', .got pages) ∧ Consistent pp' ∧
      pp'.eppTotalPages = pp.eppTotalPages ∧ pp'.eppFreePages = pp.eppFreePages - count ∧
      pp'.eppMaxPages = pp.eppMaxPages ∧ pp'.eppGrowing = pp.eppGrowing ∧ pages.length = count ∧
      stackPages pp = stackPages pp' ++ pages := by
  obtain ⟨pools', pages, taken, kept, slots, handed⟩ := takeLoop_spec count pp.eppPools (pp.eppFreePages - count)
    fun j _ below => (consistent.filled j).2 (by omega)
  have below : ∀ j ∈ List.range (pp.eppFreePages - count), slotAt pp.eppPools j = slotAt pools' j := by
    intro j inRange
    rw [slots, if_neg (by rw [List.mem_range] at inRange; omega)]
  refine ⟨{ pp with eppFreePages := pp.eppFreePages - count, eppPools := pools' }, pages, ?_,
    ⟨?_, consistent.totalLe, consistent.maxPools, fun k => ?_, fun i => ?_⟩, rfl, rfl, rfl, rfl, ?_, ?_⟩ <;>
    try dsimp only
  · unfold sptlrpcEncPoolGetPages
    rw [if_neg (by omega), if_neg (by omega)]
    simp only [taken, Option.map_some]
  · have := consistent.freeLe
    omega
  · rw [kept, consistent.allocated]
  · rw [slots]
    split_ifs with popping
    · simp only [Option.isSome_none, Bool.false_eq_true, false_iff, not_lt]
      exact popping.1
    · rw [consistent.filled]
      omega
  · simpa using congrArg List.length handed
  · -- the stack splits at the new free count, and its top is what was taken
    unfold stackPages
    rw [filterMap_range_split _ enough, List.filterMap_congr below, filterMap_of_map_some handed]

/-- `sptlrpc_enc_pool_put_pages` of a descriptor's pages, when they fit
below the total, pushes them on the stack in order and keeps the pools
consistent. -/
theorem Consistent.putPages (consistent : Consistent pp) {pages : List Nat} (nonempty : pages ≠ [])
    (room : pp.eppFreePages + pages.length ≤ pp.eppTotalPages) :
    ∃ pp', sptlrpcEncPoolPutPages pp pages = some pp' ∧ Consistent pp' ∧
      pp'.eppTotalPages = pp.eppTotalPages ∧ pp'.eppFreePages = pp.eppFreePages + pages.length ∧
      pp'.eppMaxPages = pp.eppMaxPages ∧ pp'.eppGrowing = pp.eppGrowing ∧
      stackPages pp' = stackPages pp ++ pages := by
  have length := List.length_pos_iff.2 nonempty
  -- every slot pushed lies in an allocated pool array, and is empty
  have allocatedBelow : ∀ j, j < pp.eppTotalPages → (pp.eppPools (j / pagesPerPool)).isSome := by
    intro j below
    rw [consistent.allocated, npagesToNpools_eq (by omega), pagesPerPool_eq]
    omega
  obtain ⟨pools', pushed, kept, slots⟩ := putLoop_spec pages pp.eppPools pp.eppFreePages fun j above below =>
    ⟨allocatedBelow j (by omega), Option.not_isSome_iff_eq_none.1 fun filled => by
      have := (consistent.filled j).1 filled
      omega⟩
  obtain ⟨pool, atFirst⟩ := Option.isSome_iff_exists.1 (allocatedBelow pp.eppFreePages (by omega))
  have below : ∀ j ∈ List.range pp.eppFreePages, slotAt pools' j = slotAt pp.eppPools j := by
    intro j inRange
    rw [slots, if_neg (by rw [List.mem_range] at inRange; omega)]
  have above : ∀ k ∈ List.range pages.length, slotAt pools' (pp.eppFreePages + k) = pages[k]? := by
    intro k inRange
    rw [List.mem_range] at inRange
    rw [slots, if_pos (by omega), Nat.add_sub_cancel_left]
  refine ⟨{ pp with eppFreePages := pp.eppFreePages + pages.length, eppPools := pools' }, ?_,
    ⟨room, consistent.totalLe, consistent.maxPools, fun k => ?_, fun i => ?_⟩, rfl, rfl, rfl, rfl, ?_⟩ <;>
    try dsimp only
  · unfold sptlrpcEncPoolPutPages
    rw [if_neg (not_or.2 ⟨nonempty, by omega⟩)]
    simp only [atFirst, pushed, Option.map_some]
  · rw [kept, consistent.allocated]
  · rw [slots]
    split_ifs with pushing
    · simp only [isSome_getElem?]
      omega
    · rw [consistent.filled]
      omega
  · -- the old stack, then the pages in the order of the kiov
    unfold stackPages
    rw [filterMap_range_split _ (Nat.le_add_left pages.length pp.eppFreePages), Nat.add_sub_cancel,
      List.filterMap_congr below, List.filterMap_congr above, filterMap_of_map_some (map_getElem?_range pages).symm]

end Lending

/-! ## Adding pages keeps the layout -/

/-- The new page `enc_pools_insert` puts `k` slots above the old free count:
the `freeslot` empty slots get the last new pages, downwards, and the slots
of the appended pool arrays the first ones, in order. -/
def backfilled (freeslot npages k : Nat) : Nat := if k < freeslot then npages - 1 - k else k - freeslot

/-- Back-filling puts every new page in exactly one slot. -/
theorem backfilled_perm (freeslot npages : Nat) :
    ((List.range npages).map (backfilled freeslot npages)).Perm (List.range npages) := by
  have split : npages = min freeslot npages + (npages - min freeslot npages) := by omega
  -- the slots back-filled take the top pages, reversed, and the appended ones the rest
  have filledPart : (List.range (min freeslot npages)).map (backfilled freeslot npages) =
      (List.range' (npages - min freeslot npages) (min freeslot npages)).reverse := by
    rw [List.reverse_range']
    refine List.map_congr_left fun k inRange => ?_
    rw [List.mem_range] at inRange
    rw [backfilled, if_pos (by omega)]
    omega
  have appendedPart : ((List.range (npages - min freeslot npages)).map (min freeslot npages + ·)).map
      (backfilled freeslot npages) = List.range (npages - min freeslot npages) := by
    rw [List.map_map]
    refine (List.map_congr_left fun r inRange => ?_).trans (List.map_id _)
    rw [List.mem_range] at inRange
    rw [Function.comp_apply, backfilled, if_neg (by omega), id]
    omega
  calc ((List.range npages).map (backfilled freeslot npages))
      = (List.range' (npages - min freeslot npages) (min freeslot npages)).reverse ++
          List.range (npages - min freeslot npages) := by
        rw [split, List.range_add, List.map_append, ← split, filledPart, appendedPart]
    List.Perm _ (List.range' (npages - min freeslot npages) (min freeslot npages) ++
          List.range' 0 (npages - min freeslot npages)) := by
        rw [List.range_eq_range']
        exact (List.reverse_perm _).append_right _
    List.Perm _ (List.range' 0 (npages - min freeslot npages) ++
          List.range' (npages - min freeslot npages) (min freeslot npages)) := List.perm_append_comm
    _ = List.range npages := by
        have joined := List.range'_append_1 (s := 0) (m := npages - min freeslot npages) (n := min freeslot npages)
        rw [Nat.zero_add] at joined
        rw [joined, Nat.sub_add_cancel (Nat.min_le_right _ _), List.range_eq_range']

section Growing

variable {pp : PagePools}

/-- `enc_pools_insert` of `npages` new pages numbered from `first`, on
consistent pools that are growing and have room for them, keeps them
consistent: the empty slots of the allocated pool arrays get the last new
pages, from the old free count up, and the pool arrays holding the first
ones are appended. -/
theorem Consistent.insert (consistent : Consistent pp) (growing : pp.eppGrowing = true) {npages : Nat}
    (pos : 0 < npages) (fits : pp.eppTotalPages + npages ≤ pp.eppMaxPages) (first : Nat) :
    ∃ pp' rest, encPoolsInsert pp (newPoolArrays first (npagesToNpools npages) npages) (npagesToNpools npages)
        npages = some (pp', rest) ∧
      Consistent pp' ∧ pp'.eppMaxPages = pp.eppMaxPages ∧ pp'.eppGrowing = pp.eppGrowing ∧
      pp'.eppTotalPages = pp.eppTotalPages + npages ∧ pp'.eppFreePages = pp.eppFreePages + npages ∧
      ∀ i, slotAt pp'.eppPools i =
        if i < pp.eppFreePages then slotAt pp.eppPools i
        else if i < pp.eppFreePages + npages then
          some (first + backfilled (npagesToNpools pp.eppTotalPages * pagesPerPool - pp.eppFreePages) npages
            (i - pp.eppFreePages))
        else none := by
  have freeLe := consistent.freeLe
  have ppp := pagesPerPool_eq
  -- `freeslot`, the empty slots of the allocated pool arrays, in flat terms
  have freeslotEq : (if pp.eppTotalPages % pagesPerPool ≠ 0 then pagesPerPool - pp.eppTotalPages % pagesPerPool
      else 0) + (pp.eppTotalPages - pp.eppFreePages) =
      npagesToNpools pp.eppTotalPages * pagesPerPool - pp.eppFreePages := by
    unfold npagesToNpools
    rw [ppp]
    split_ifs <;> omega
  have lastNew : npagesToNpools npages - 1 = (npages - 1) / pagesPerPool := by
    unfold npagesToNpools
    rw [ppp]
    omega
  have coverT : pp.eppTotalPages ≤ npagesToNpools pp.eppTotalPages * pagesPerPool := by
    unfold npagesToNpools
    rw [ppp]
    omega
  have grows : npagesToNpools pp.eppTotalPages ≤ npagesToNpools (pp.eppTotalPages + npages) := by
    unfold npagesToNpools
    rw [ppp]
    omega
  have allocatedBelow : ∀ i, i < npagesToNpools pp.eppTotalPages * pagesPerPool →
      (pp.eppPools (i / pagesPerPool)).isSome := by
    intro i below
    rw [consistent.allocated]
    exact (Nat.div_lt_iff_lt_mul (by rw [ppp]; norm_num)).2 below
  -- (1) the empty slots are filled from the last new page down
  obtain ⟨pools₁, newPools₁, filledRun, kept₁, keptNew₁, slots₁, newSlots₁⟩ :=
    fillLoop_spec (npagesToNpools pp.eppTotalPages * pagesPerPool - pp.eppFreePages) pp.eppPools
      (newPoolArrays first (npagesToNpools npages) npages) pp.eppFreePages (npages - 1) fun r below within =>
        ⟨allocatedBelow _ (by omega), Option.not_isSome_iff_eq_none.1 fun filled => by
          have := (consistent.filled _).1 filled
          omega, by rw [slotAt_newPoolArrays, if_pos (by omega)]; rfl⟩
  -- (2) the new pool arrays past the old ones are appended
  have room : npagesToNpools (pp.eppTotalPages + npages) ≤ pp.eppMaxPools := by
    refine le_trans ?_ consistent.maxPools
    unfold npagesToNpools
    rw [ppp]
    omega
  have appendedFit : npagesToNpools (pp.eppTotalPages + npages) - npagesToNpools pp.eppTotalPages ≤
      npagesToNpools npages := by
    unfold npagesToNpools
    rw [ppp]
    omega
  obtain ⟨pools₂, newPools₂, appendedRun, slots₂, -⟩ :=
    appendLoop_spec (npagesToNpools (pp.eppTotalPages + npages) - npagesToNpools pp.eppTotalPages) pools₁ newPools₁
      (npagesToNpools npages) (npagesToNpools pp.eppTotalPages) 0 fun i below =>
        ⟨Option.not_isSome_iff_eq_none.1 (by rw [kept₁, consistent.allocated]; omega),
          by rw [keptNew₁, newPoolArrays_isSome]; omega, by omega⟩
  -- where each slot of the result lies
  have slots : ∀ i, slotAt pools₂ i =
      if i < pp.eppFreePages then slotAt pp.eppPools i
      else if i < pp.eppFreePages + npages then
        some (first + backfilled (npagesToNpools pp.eppTotalPages * pagesPerPool - pp.eppFreePages) npages
          (i - pp.eppFreePages))
      else none := by
    intro i
    by_cases old : i / pagesPerPool < npagesToNpools pp.eppTotalPages
    · -- a slot of an old pool array: free before, or back-filled
      have inOld : i < npagesToNpools pp.eppTotalPages * pagesPerPool :=
        (Nat.div_lt_iff_lt_mul (by rw [ppp]; norm_num)).1 old
      rw [slotAt_congr (by rw [slots₂, if_neg (by omega)]), slots₁]
      by_cases free : i < pp.eppFreePages
      · rw [if_neg (by omega), if_pos free]
      · by_cases added : i < pp.eppFreePages + npages
        · rw [if_pos ⟨by omega, by omega, by omega⟩, if_neg free, if_pos added, slotAt_newPoolArrays,
            if_pos (by omega), backfilled, if_pos (by omega)]
        · rw [if_neg (by omega), if_neg free, if_neg added]
          exact Option.not_isSome_iff_eq_none.1 fun filled => free ((consistent.filled i).1 filled)
    · by_cases appended : i / pagesPerPool < npagesToNpools (pp.eppTotalPages + npages)
      · -- a slot of an appended pool array: the first new pages, past the back-filled ones
        have past : npagesToNpools pp.eppTotalPages * pagesPerPool ≤ i := by
          rw [ppp] at old ⊢
          omega
        rw [slotAt_shift past (by rw [slots₂, if_pos ⟨by omega, by omega⟩, Nat.zero_add]), newSlots₁,
          slotAt_newPoolArrays, if_neg (show ¬i < pp.eppFreePages by omega)]
        by_cases added : i < pp.eppFreePages + npages
        · rw [if_neg (by omega), if_pos (by omega), if_pos added, backfilled, if_neg (by omega)]
          congr 2
          omega
        · rw [if_neg added]
          split_ifs <;> first | rfl | omega
      · -- a slot past the pool arrays
        have gone : pools₂ (i / pagesPerPool) = none :=
          Option.not_isSome_iff_eq_none.1 (by rw [slots₂, if_neg (by omega), kept₁, consistent.allocated]; omega)
        have past : pp.eppTotalPages + npages ≤ i := by
          unfold npagesToNpools at appended
          rw [ppp] at appended
          omega
        rw [slotAt_eq, gone, Option.bind_none, if_neg (by omega), if_neg (by omega)]
  refine ⟨{ pp with
      eppTotalPages := pp.eppTotalPages + npages
      eppFreePages := pp.eppFreePages + npages
      eppPools := pools₂ }, newPools₂, ?_,
    ⟨?_, ?_, consistent.maxPools, fun k => ?_, fun i => ?_⟩, rfl, rfl, rfl, rfl, slots⟩ <;> try dsimp only
  · have guard : ¬(npages = 0 ∨ pp.eppMaxPages < pp.eppTotalPages + npages ∨
        npagesToNpools npages ≠ npagesToNpools npages ∨ (!pp.eppGrowing) = true) := by
      rw [growing]
      simp only [ne_eq, not_true_eq_false, Bool.not_true, Bool.false_eq_true, or_false]
      omega
    have endFits : ¬pp.eppMaxPools < (pp.eppTotalPages + npages + pagesPerPool - 1) / pagesPerPool := by
      unfold npagesToNpools at room
      omega
    unfold encPoolsInsert
    rw [if_neg guard]
    dsimp only
    simp only [freeslotEq, lastNew, filledRun, Option.bind_some]
    rw [if_neg endFits]
    simp only [npagesToNpools] at appendedRun ⊢
    simp only [appendedRun, Option.map_some]
  · omega
  · exact fits
  · -- the pool arrays are the old ones and the appended ones
    rw [slots₂]
    split_ifs with inside
    · rw [keptNew₁, newPoolArrays_isSome]
      omega
    · rw [kept₁, consistent.allocated]
      omega
  · rw [slots]
    split_ifs with below above
    · rw [consistent.filled]
      omega
    · simp only [Option.isSome_some, true_iff]
      omega
    · simp only [Option.isSome_none, Bool.false_eq_true, false_iff]
      omega

/-- After `enc_pools_insert` the stack holds the old pages and each new one
once. -/
theorem stackPages_inserted {pp' : PagePools} {npages first freeslot : Nat}
    (free' : pp'.eppFreePages = pp.eppFreePages + npages)
    (slots : ∀ i, slotAt pp'.eppPools i =
      if i < pp.eppFreePages then slotAt pp.eppPools i
      else if i < pp.eppFreePages + npages then some (first + backfilled freeslot npages (i - pp.eppFreePages))
      else none) :
    (stackPages pp').Perm (stackPages pp ++ List.range' first npages) := by
  have old : ∀ j ∈ List.range pp.eppFreePages, slotAt pp'.eppPools j = slotAt pp.eppPools j := by
    intro j inRange
    rw [List.mem_range] at inRange
    rw [slots, if_pos inRange]
  have new : ∀ k ∈ List.range npages,
      slotAt pp'.eppPools (pp.eppFreePages + k) = (some ∘ (first + ·) ∘ backfilled freeslot npages) k := by
    intro k inRange
    rw [List.mem_range] at inRange
    rw [slots, if_neg (by omega), if_pos (by omega), Nat.add_sub_cancel_left]
    rfl
  unfold stackPages
  rw [free', filterMap_range_split _ (Nat.le_add_left npages pp.eppFreePages), Nat.add_sub_cancel,
    List.filterMap_congr old, List.filterMap_congr new, List.filterMap_eq_map, ← List.map_map,
    List.range'_eq_map_range]
  exact (((backfilled_perm freeslot npages).map _)).append_left _

/-- `enc_pools_add_pages`, run while the pools grow and are below their
maximum, keeps them consistent: a failed allocation leaves them as they
were, and otherwise `min(max(npages, PTLRPC_MAX_BRW_PAGES), epp_max_pages -
epp_total_pages)` pages numbered from `first` join the total and the stack. -/
theorem Consistent.addPages (consistent : Consistent pp) (growing : pp.eppGrowing = true)
    (below : pp.eppTotalPages < pp.eppMaxPages) (npages first : Nat) (fails : Bool) :
    ∃ rc pp' freed, encPoolsAddPages pp npages first fails = some (rc, pp', freed) ∧ Consistent pp' ∧
      pp'.eppMaxPages = pp.eppMaxPages ∧ pp'.eppGrowing = pp.eppGrowing ∧
      ∃ added, added ≤ max npages ptlrpcMaxBrwPages ∧ pp'.eppTotalPages = pp.eppTotalPages + added ∧
        pp'.eppFreePages = pp.eppFreePages + added ∧ (stackPages pp').Perm (stackPages pp ++ List.range' first added) := by
  -- the pages asked for, clamped to the room left
  have clamp : (if pp.eppMaxPages < max npages ptlrpcMaxBrwPages + pp.eppTotalPages then
      pp.eppMaxPages - pp.eppTotalPages else max npages ptlrpcMaxBrwPages) =
      min (max npages ptlrpcMaxBrwPages) (pp.eppMaxPages - pp.eppTotalPages) := by
    split_ifs <;> omega
  have pos : 0 < min (max npages ptlrpcMaxBrwPages) (pp.eppMaxPages - pp.eppTotalPages) := by
    rw [ptlrpcMaxBrwPages_eq]
    omega
  cases fails with
  | true =>
    refine ⟨-12, pp, 0, ?_, consistent, rfl, rfl, 0, Nat.zero_le _, rfl, rfl, ?_⟩
    · unfold encPoolsAddPages
      simp only [clamp, if_neg (Nat.pos_iff_ne_zero.1 pos), if_true]
    · rw [List.range'_zero, List.append_nil]
  | false =>
    obtain ⟨pp', rest, inserted, consistent', max', growing', total', free', slots⟩ :=
      consistent.insert growing pos (by omega) first
    refine ⟨0, pp', (List.range (npagesToNpools (min (max npages ptlrpcMaxBrwPages)
        (pp.eppMaxPages - pp.eppTotalPages)) * pagesPerPool)).countP fun i => (slotAt rest i).isSome, ?_,
      consistent', max', growing', _, Nat.min_le_left _ _, total', free', stackPages_inserted free' slots⟩
    unfold encPoolsAddPages
    simp only [clamp, if_neg (Nat.pos_iff_ne_zero.1 pos), Bool.false_eq_true, if_false, inserted, Option.map_some]

end Growing

/-- With the pools just set up, and every time fewer than
`PTLRPC_MAX_BRW_PAGES` pages are free, `enc_pools_shrink_scan` asked to scan
one page fails the assertion `npages <= epp_free_pages`: the pools set up by
`sptlrpc_enc_pool_init` are consistent and hold no page, and the shrinker
asks to release one. -/
theorem encPoolsShrinkScan_asserts_on_empty_pools (maxPages : Nat) :
    Consistent (sptlrpcEncPoolInit maxPages) ∧ encPoolsShrinkScan (sptlrpcEncPoolInit maxPages) 1 = none := by
  have consistent := consistent_sptlrpcEncPoolInit maxPages
  refine ⟨consistent, ?_⟩
  -- no page is free, and one is asked for
  exact (consistent.shrinkScan (show 1 < 2 ^ 64 by norm_num) (show 0 < 2 ^ 63 by norm_num)).1.2
    ⟨show 0 < 1024 by norm_num, show 0 < 1 by norm_num⟩

end SecBulk
end Lustre
