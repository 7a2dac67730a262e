import Mathlib.Algebra.BigOperators.Group.List.Basic
import Lustre.Library.Run
import Lustre.Ptlrpc.SecBulk

/-!
# The page pools over whole runs (ptlrpc/sec_bulk.c)

Every thread that encrypts bulk pages shares `page_pools`.  Each section of
`sptlrpc_enc_pool_get_pages`, `sptlrpc_enc_pool_put_pages`,
`enc_pools_add_pages` and `enc_pools_shrink_scan` under `epp_lock` is one
step, and the steps of the threads interleave in any order.  To grow the
pools, `sptlrpc_enc_pool_get_pages` sets `epp_growing`, drops `epp_lock`,
calls `enc_pools_add_pages` and clears `epp_growing` again; `GrowStage`
says where that one thread is.

Pages are numbered as `alloc_page` hands them out.  A page is live while it
is in a slot of the stack or in the encryption kiov of a descriptor.
`Conserved` says four things: the stack keeps its layout, no live page is in
two places, the descriptors hold `epp_total_pages - epp_free_pages` pages,
and `epp_growing` is set exactly while a thread grows the pools.  Every step
keeps it except a shrink that asks for more pages than are free while fewer
than `PTLRPC_MAX_BRW_PAGES` are free (`conserved_of_reachable`).  That
shrink fails the assertion of `enc_pools_release_free_pages`
(`Consistent.shrinkScan`).
-/

namespace Lustre
namespace SecBulk

/-- Where the thread that grows the pools is. -/
inductive GrowStage
  /-- no thread grows the pools -/
  | idle
  /-- a thread has set `epp_growing` and dropped `epp_lock` to call `enc_pools_add_pages` -/
  | adding
  /-- `enc_pools_add_pages` has returned and `epp_growing` is still set -/
  | added
  deriving DecidableEq, Repr

/-- The page pools, the descriptors that hold pages, and the page allocator. -/
structure EncPoolSystem where
  pools : PagePools
  /-- the encryption kiov of every descriptor that holds pages -/
  kiovs : List (List Nat)
  /-- the number of the next page `alloc_page` hands out -/
  nextPage : Nat
  stage : GrowStage

/-- The pools as `sptlrpc_enc_pool_init` leaves them, before any descriptor. -/
def encPoolStart (maxPages : Nat) : EncPoolSystem := ⟨sptlrpcEncPoolInit maxPages, [], 0, .idle⟩

/-- The sections under `epp_lock`, with the choices of the environment. -/
inductive EncPoolEvent
  /-- one pass of `sptlrpc_enc_pool_get_pages` for a new descriptor of `count` pages -/
  | getPages (count : Nat)
  /-- `sptlrpc_enc_pool_put_pages` of the `d`-th descriptor -/
  | putPages (d : Nat)
  /-- `enc_pools_add_pages(npages)` of the growing thread; an allocation fails when `fails` -/
  | addPages (npages : Nat) (fails : Bool)
  /-- the growing thread takes `epp_lock` again and clears `epp_growing` -/
  | grown
  /-- `enc_pools_shrink_scan` with `sc->nr_to_scan = nrToScan` -/
  | shrinkScan (nrToScan : Nat)

/-- One step; `none` is a failed assertion, and stays. -/
def EncPoolEvent.apply : Option EncPoolSystem → EncPoolEvent → Option EncPoolSystem
  | none, _ => none
  | some sys, .getPages count =>
    (sptlrpcEncPoolGetPages sys.pools count).map fun got =>
      match got.2 with
      | .got pages => { sys with pools := got.1, kiovs := pages :: sys.kiovs }
      | .grow => { sys with pools := got.1, stage := .adding }
      | .wait => { sys with pools := got.1 }
      | .enomem => { sys with pools := got.1 }
  | some sys, .putPages d =>
    match sys.kiovs[d]? with
    -- `GET_ENC_KIOV(desc) == NULL`: nothing to put back
    | none => some sys
    | some pages =>
      (sptlrpcEncPoolPutPages sys.pools pages).map fun pools =>
        { sys with pools := pools, kiovs := sys.kiovs.eraseIdx d }
  | some sys, .addPages npages fails =>
    (encPoolsAddPages sys.pools npages sys.nextPage fails).map fun added =>
      { sys with
        pools := added.2.1
        nextPage := sys.nextPage + (added.2.1.eppTotalPages - sys.pools.eppTotalPages)
        stage := .added }
  | some sys, .grown => some { sys with pools := { sys.pools with eppGrowing := false }, stage := .idle }
  | some sys, .shrinkScan nrToScan =>
    (encPoolsShrinkScan sys.pools nrToScan).map fun shrunk => { sys with pools := shrunk.1 }

theorem EncPoolEvent.apply_getPages (sys : EncPoolSystem) (count : Nat) :
    EncPoolEvent.apply (some sys) (.getPages count) =
      (sptlrpcEncPoolGetPages sys.pools count).map fun got =>
        match got.2 with
        | .got pages => { sys with pools := got.1, kiovs := pages :: sys.kiovs }
        | .grow => { sys with pools := got.1, stage := .adding }
        | .wait => { sys with pools := got.1 }
        | .enomem => { sys with pools := got.1 } := rfl

theorem EncPoolEvent.apply_putPages (sys : EncPoolSystem) (d : Nat) :
    EncPoolEvent.apply (some sys) (.putPages d) =
      match sys.kiovs[d]? with
      | none => some sys
      | some pages =>
        (sptlrpcEncPoolPutPages sys.pools pages).map fun pools =>
          { sys with pools := pools, kiovs := sys.kiovs.eraseIdx d } := rfl

theorem EncPoolEvent.apply_addPages (sys : EncPoolSystem) (npages : Nat) (fails : Bool) :
    EncPoolEvent.apply (some sys) (.addPages npages fails) =
      (encPoolsAddPages sys.pools npages sys.nextPage fails).map fun added =>
        { sys with
          pools := added.2.1
          nextPage := sys.nextPage + (added.2.1.eppTotalPages - sys.pools.eppTotalPages)
          stage := .added } := rfl

theorem EncPoolEvent.apply_shrinkScan (sys : EncPoolSystem) (nrToScan : Nat) :
    EncPoolEvent.apply (some sys) (.shrinkScan nrToScan) =
      (encPoolsShrinkScan sys.pools nrToScan).map fun shrunk => { sys with pools := shrunk.1 } := rfl

/-- The steps the environment offers: descriptors of 1 to `epp_max_pages`
pages, the steps of the growing thread in their order, and shrinks with an
`unsigned long` count that is at most the free pages while fewer than
`PTLRPC_MAX_BRW_PAGES` are free. -/
def EncPoolEvent.Allowed : Option EncPoolSystem → EncPoolEvent → Prop
  | none, _ => False
  | some sys, .getPages count => 0 < count ∧ count ≤ sys.pools.eppMaxPages
  | some _, .putPages _ => True
  | some sys, .addPages _ _ => sys.stage = .adding
  | some sys, .grown => sys.stage = .added
  | some sys, .shrinkScan nrToScan =>
    nrToScan < 2 ^ 64 ∧ (ptlrpcMaxBrwPages ≤ sys.pools.eppFreePages ∨ nrToScan ≤ sys.pools.eppFreePages)

/-- The pages allocated and not freed: those on the stack, then those the
descriptors hold. -/
def livePages (sys : EncPoolSystem) : List Nat := stackPages sys.pools ++ sys.kiovs.flatten

theorem livePages_eq (sys : EncPoolSystem) : livePages sys = stackPages sys.pools ++ sys.kiovs.flatten := rfl

/-- The pools keep their layout and their pages. -/
structure Conserved (sys : EncPoolSystem) : Prop where
  consistent : Consistent sys.pools
  maxFits : sys.pools.eppMaxPages < 2 ^ 63
  /-- no live page is in two places -/
  nodup : (livePages sys).Nodup
  /-- every live page has been handed out by the allocator -/
  numbered : ∀ page ∈ livePages sys, page < sys.nextPage
  /-- the descriptors hold the pages that are not free -/
  held : (sys.kiovs.map List.length).sum + sys.pools.eppFreePages = sys.pools.eppTotalPages
  nonempty : ∀ kiov ∈ sys.kiovs, kiov ≠ []
  growing : sys.pools.eppGrowing = true ↔ sys.stage ≠ .idle
  /-- `enc_pools_should_grow` only grows pools below their maximum -/
  room : sys.stage = .adding → sys.pools.eppTotalPages < sys.pools.eppMaxPages

theorem conserved_encPoolStart {maxPages : Nat} (fits : maxPages < 2 ^ 63) : Conserved (encPoolStart maxPages) where
  consistent := consistent_sptlrpcEncPoolInit maxPages
  maxFits := fits
  nodup := by simp [livePages_eq, stackPages, encPoolStart, sptlrpcEncPoolInit]
  numbered := by simp [livePages_eq, stackPages, encPoolStart, sptlrpcEncPoolInit]
  held := rfl
  nonempty := by simp [encPoolStart]
  growing := by simp [encPoolStart, sptlrpcEncPoolInit]
  room := by simp [encPoolStart]

/-- `epp_growing` is not part of the layout. -/
theorem Consistent.setGrowing {pp : PagePools} (consistent : Consistent pp) (growing : Bool) :
    Consistent { pp with eppGrowing := growing } :=
  ⟨consistent.freeLe, consistent.totalLe, consistent.maxPools, consistent.allocated, consistent.filled⟩

/-- The descriptor at position `d`, and the others. -/
theorem perm_cons_eraseIdx {kiovs : List (List Nat)} {d : Nat} {pages : List Nat}
    (atD : kiovs[d]? = some pages) : kiovs.Perm (pages :: kiovs.eraseIdx d) := by
  obtain ⟨lt, eq⟩ := List.getElem?_eq_some_iff.1 atD
  have moved := (List.perm_cons_erase (List.getElem_mem lt)).trans ((List.erase_getElem lt).cons kiovs[d])
  rwa [eq] at moved

section Steps

variable {sys : EncPoolSystem}

/-- A pass of `sptlrpc_enc_pool_get_pages` moves pages from the top of the
stack into the new descriptor, or starts a grow, or leaves the pools as they
are. -/
theorem Conserved.getPages (conserved : Conserved sys) {count : Nat} (pos : 0 < count)
    (le : count ≤ sys.pools.eppMaxPages) :
    ∃ sys', EncPoolEvent.apply (some sys) (.getPages count) = some sys' ∧ Conserved sys' := by
  by_cases enough : count ≤ sys.pools.eppFreePages
  · obtain ⟨pp', pages, ran, consistent', total', free', max', growing', length, popped⟩ :=
      conserved.consistent.getPages pos le enough
    refine ⟨{ sys with pools := pp', kiovs := pages :: sys.kiovs }, by simp only [EncPoolEvent.apply_getPages, ran,
      Option.map_some], ?_⟩
    -- the pages taken are the same pages, now in the descriptor
    have same : livePages { sys with pools := pp', kiovs := pages :: sys.kiovs } = livePages sys := by
      simp only [livePages_eq, List.flatten_cons, popped, List.append_assoc]
    have held := conserved.held
    refine ⟨consistent', by rw [max']; exact conserved.maxFits, same ▸ conserved.nodup,
      same ▸ conserved.numbered, ?_, ?_, by rw [growing']; exact conserved.growing,
      fun adding => by rw [total', max']; exact conserved.room adding⟩
    · simp only [List.map_cons, List.sum_cons, length, free', total']
      omega
    · rintro kiov (_ | ⟨_, other⟩)
      · exact List.ne_nil_of_length_pos (by omega)
      · exact conserved.nonempty kiov other
  · have short : ¬(count = 0 ∨ sys.pools.eppMaxPages < count) ∧ sys.pools.eppFreePages < count := by omega
    by_cases grow : encPoolsShouldGrow sys.pools count = true
    · -- no thread grows the pools and they are below their maximum: this thread grows them
      obtain ⟨idle, notFull⟩ := encPoolsShouldGrow_eq_true.1 grow
      have ran : sptlrpcEncPoolGetPages sys.pools count = some ({ sys.pools with eppGrowing := true }, .grow) := by
        rw [sptlrpcEncPoolGetPages, if_neg short.1, if_pos short.2, if_pos grow]
      refine ⟨{ sys with pools := { sys.pools with eppGrowing := true }, stage := .adding },
        by simp only [EncPoolEvent.apply_getPages, ran, Option.map_some], ?_⟩
      exact ⟨conserved.consistent.setGrowing true, conserved.maxFits, conserved.nodup, conserved.numbered,
        conserved.held, conserved.nonempty, by simp,
        fun _ => lt_of_le_of_ne conserved.consistent.totalLe notFull⟩
    · -- the thread waits for the grow, or gives up with `-ENOMEM`
      have unchanged : ∀ outcome, sptlrpcEncPoolGetPages sys.pools count = some (sys.pools, outcome) →
          (outcome = .wait ∨ outcome = .enomem) →
          EncPoolEvent.apply (some sys) (.getPages count) = some sys := by
        rintro outcome ran (rfl | rfl) <;> simp only [EncPoolEvent.apply_getPages, ran, Option.map_some]
      refine ⟨sys, ?_, conserved⟩
      cases growing : sys.pools.eppGrowing with
      | true =>
        exact unchanged .wait (by rw [sptlrpcEncPoolGetPages, if_neg short.1, if_pos short.2, if_neg grow,
          if_pos growing]) (.inl rfl)
      | false =>
        exact unchanged .enomem (by rw [sptlrpcEncPoolGetPages, if_neg short.1, if_pos short.2, if_neg grow,
          if_neg (by rw [growing]; decide)]) (.inr rfl)

/-- `sptlrpc_enc_pool_put_pages` moves the pages of a descriptor back on top
of the stack. -/
theorem Conserved.putPages (conserved : Conserved sys) (d : Nat) :
    ∃ sys', EncPoolEvent.apply (some sys) (.putPages d) = some sys' ∧ Conserved sys' := by
  cases atD : sys.kiovs[d]? with
  | none => exact ⟨sys, by simp only [EncPoolEvent.apply_putPages, atD], conserved⟩
  | some pages =>
    have moved := perm_cons_eraseIdx atD
    have lengths : (sys.kiovs.map List.length).sum = pages.length + ((sys.kiovs.eraseIdx d).map List.length).sum := by
      rw [(moved.map List.length).sum_eq, List.map_cons, List.sum_cons]
    have held := conserved.held
    obtain ⟨pp', ran, consistent', total', free', max', growing', pushed⟩ :=
      conserved.consistent.putPages (conserved.nonempty pages (List.mem_of_getElem? atD)) (by omega)
    refine ⟨{ sys with pools := pp', kiovs := sys.kiovs.eraseIdx d }, by simp only [EncPoolEvent.apply_putPages, atD, ran,
      Option.map_some], ?_⟩
    -- the same pages, the descriptor's now at the top of the stack
    have perm : (livePages { sys with pools := pp', kiovs := sys.kiovs.eraseIdx d }).Perm (livePages sys) := by
      simp only [livePages_eq, pushed, List.append_assoc]
      exact (moved.flatten.symm.trans (List.Perm.refl _)).append_left _
    refine ⟨consistent', by rw [max']; exact conserved.maxFits, perm.nodup_iff.2 conserved.nodup,
      fun page live => conserved.numbered page (perm.subset live), ?_,
      fun kiov mem => conserved.nonempty kiov (List.mem_of_mem_eraseIdx mem), by rw [growing']; exact conserved.growing,
      fun adding => by rw [total', max']; exact conserved.room adding⟩
    simp only [free', total']
    omega

/-- `enc_pools_add_pages` of the growing thread puts fresh pages on the stack. -/
theorem Conserved.addPages (conserved : Conserved sys) (adding : sys.stage = .adding) (npages : Nat) (fails : Bool) :
    ∃ sys', EncPoolEvent.apply (some sys) (.addPages npages fails) = some sys' ∧ Conserved sys' := by
  have growingNow : sys.pools.eppGrowing = true := conserved.growing.2 (by rw [adding]; decide)
  obtain ⟨rc, pp', freed, ran, consistent', max', growing', added, -, total', free', stacked⟩ :=
    conserved.consistent.addPages growingNow (conserved.room adding) npages sys.nextPage fails
  refine ⟨{ sys with
      pools := pp'
      nextPage := sys.nextPage + (pp'.eppTotalPages - sys.pools.eppTotalPages)
      stage := .added }, by simp only [EncPoolEvent.apply_addPages, ran, Option.map_some], ?_⟩
  -- the live pages are the old ones and the new ones, numbered from `nextPage`
  have perm : (stackPages pp' ++ sys.kiovs.flatten).Perm (livePages sys ++ List.range' sys.nextPage added) := by
    simp only [livePages_eq, List.append_assoc]
    exact ((stacked.append_right _).trans (by rw [List.append_assoc])).trans
      ((List.perm_append_comm.append_left _))
  have fresh : ∀ page ∈ livePages sys, ∀ new ∈ List.range' sys.nextPage added, page ≠ new := by
    intro page live new isNew
    have := conserved.numbered page live
    rw [List.mem_range'_1] at isNew
    omega
  have held := conserved.held
  refine ⟨consistent', by rw [max']; exact conserved.maxFits,
    perm.nodup_iff.2 (List.nodup_append.2 ⟨conserved.nodup, List.nodup_range' 1, fresh⟩), fun page live => ?_, ?_,
    conserved.nonempty, iff_of_true (by rw [growing', growingNow]) nofun, nofun⟩
  · show page < sys.nextPage + (pp'.eppTotalPages - sys.pools.eppTotalPages)
    rw [total']
    rcases List.mem_append.1 (perm.subset live) with old | new
    · have := conserved.numbered page old
      omega
    · rw [List.mem_range'_1] at new
      omega
  · simp only [free', total']
    omega

/-- The growing thread clears `epp_growing`. -/
theorem Conserved.grown (conserved : Conserved sys) :
    ∃ sys', EncPoolEvent.apply (some sys) .grown = some sys' ∧ Conserved sys' :=
  ⟨_, rfl, conserved.consistent.setGrowing false, conserved.maxFits, conserved.nodup, conserved.numbered,
    conserved.held, conserved.nonempty, by simp, nofun⟩

/-- `enc_pools_shrink_scan`, when its assertion holds, releases free pages
off the top of the stack. -/
theorem Conserved.shrinkScan (conserved : Conserved sys) {nrToScan : Nat} (ulong : nrToScan < 2 ^ 64)
    (safe : ptlrpcMaxBrwPages ≤ sys.pools.eppFreePages ∨ nrToScan ≤ sys.pools.eppFreePages) :
    ∃ sys', EncPoolEvent.apply (some sys) (.shrinkScan nrToScan) = some sys' ∧ Conserved sys' := by
  have scan := conserved.consistent.shrinkScan ulong
    (lt_of_le_of_lt conserved.consistent.totalLe conserved.maxFits)
  cases ran : encPoolsShrinkScan sys.pools nrToScan with
  | none =>
    have crash := scan.1.1 ran
    omega
  | some shrunk =>
    obtain ⟨consistent', within, free', total', max', growing', popped⟩ := scan.2 shrunk.1 shrunk.2 ran
    refine ⟨{ sys with pools := shrunk.1 }, by simp only [EncPoolEvent.apply_shrinkScan, ran, Option.map_some], ?_⟩
    -- the pages left are some of the live ones
    have kept : (livePages { sys with pools := shrunk.1 }).Sublist (livePages sys) := popped.append_right _
    have held := conserved.held
    refine ⟨consistent', by rw [max']; exact conserved.maxFits, conserved.nodup.sublist kept,
      fun page live => conserved.numbered page (kept.subset live), ?_, conserved.nonempty,
      by rw [growing']; exact conserved.growing, fun adding => by rw [total', max']; have := conserved.room adding; omega⟩
    simp only [free', total']
    omega

/-- Every step the environment offers fails no assertion and keeps the
pools conserved. -/
theorem Conserved.apply (conserved : Conserved sys) {event : EncPoolEvent}
    (allowed : EncPoolEvent.Allowed (some sys) event) :
    ∃ sys', event.apply (some sys) = some sys' ∧ Conserved sys' := by
  cases event with
  | getPages count => exact conserved.getPages allowed.1 allowed.2
  | putPages d => exact conserved.putPages d
  | addPages npages fails => exact conserved.addPages allowed npages fails
  | grown => exact conserved.grown
  | shrinkScan nrToScan => exact conserved.shrinkScan allowed.1 allowed.2

end Steps

end SecBulk
end Lustre
