import Lustre.Ldlm.Flock

/-!
# The deadlock walk of flock locks

`ldlm_flock_deadlock` follows the entries of the exports' `exp_flock_hash`:
from an owner it takes the one entry the hash gives for it and goes on to the
owner that entry waits for.  Read as a graph on (owner, export) pairs, the
entries are the edges `FlockWaits`, and the walk is a path along them.

The walk ends whenever the edges it can meet are ranked, each edge going to a
smaller rank (`ldlmFlockDeadlock_run_of_ranked`), and an answer of deadlock
always stands on a path of recorded edges back to the requesting owner
(`ldlmFlockDeadlock_path_of_true`).  Nothing keeps the edges ranked, though.
The hash gives one entry per owner, the newest, while an owner whose threads
share it may wait on several resources, and when a reprocessed request is
granted its entry leaves the hash and uncovers an older one of the same owner.
Two owners can then stand in a cycle of entries that no new request closes,
and the next request blocked by either of them walks round the cycle forever.
-/

namespace Lustre.Ldlm

/-- An edge of the recorded waits: the entry the walk finds for an owner on the
NID of an export names the owner and export it waits for. -/
def FlockWaits (server : FlockServer) (source target : UInt64 × Nat) : Prop :=
  ∃ link, ldlmFlockLookup server source.1 source.2 = some link ∧
    (link.blockingOwner, link.blockingExport) = target

section Walk

variable {server : FlockServer} {req : FlockLock}

/-- The body goes round again exactly along a recorded wait that neither
finds the request, nor reaches a failed export, nor comes back to the
requesting owner. -/
theorem ldlmFlockDeadlockBody_eq_inr_iff {state next : UInt64 × Nat} :
    ldlmFlockDeadlockBody server req state = .inr next ↔
      ∃ link, ldlmFlockLookup server state.1 state.2 = some link ∧ link.handle ≠ req.handle ∧
        (server.exportOf link.blockingExport).failed = false ∧
        ¬(link.blockingOwner = req.owner ∧
          (server.exportOf link.blockingExport).nid = (server.exportOf req.lExport).nid) ∧
        (link.blockingOwner, link.blockingExport) = next := by
  obtain ⟨blOwner, blExp⟩ := state
  simp only [ldlmFlockDeadlockBody]
  cases found : ldlmFlockLookup server blOwner blExp with
  | none => simp
  | some link =>
    simp only [Option.some.injEq, exists_eq_left']
    by_cases isReq : link.handle = req.handle
    · simp [isReq]
    by_cases failed : (server.exportOf link.blockingExport).failed = true
    · simp [isReq, failed]
    by_cases back : link.blockingOwner = req.owner ∧
        (server.exportOf link.blockingExport).nid = (server.exportOf req.lExport).nid
    · simp [isReq, failed, back]
    · simp [isReq, failed, back, Sum.inr.injEq]

/-- The body answers "deadlock" only at an entry that waits for the
requesting owner on the request's NID. -/
theorem ldlmFlockDeadlockBody_eq_inl_true {state : UInt64 × Nat}
    (answers : ldlmFlockDeadlockBody server req state = .inl (some true)) :
    ∃ link, ldlmFlockLookup server state.1 state.2 = some link ∧ link.blockingOwner = req.owner ∧
      (server.exportOf link.blockingExport).nid = (server.exportOf req.lExport).nid := by
  obtain ⟨blOwner, blExp⟩ := state
  simp only [ldlmFlockDeadlockBody] at answers
  cases found : ldlmFlockLookup server blOwner blExp with
  | none => simp [found] at answers
  | some link =>
    simp only [found] at answers
    refine ⟨link, rfl, ?_⟩
    by_cases back : link.blockingOwner = req.owner ∧
        (server.exportOf link.blockingExport).nid = (server.exportOf req.lExport).nid
    · exact back
    · split_ifs at answers <;> cases answers

theorem FlockWaits.of_body {state next : UInt64 × Nat}
    (goesOn : ldlmFlockDeadlockBody server req state = .inr next) : FlockWaits server state next := by
  obtain ⟨link, found, -, -, -, target⟩ := ldlmFlockDeadlockBody_eq_inr_iff.1 goesOn
  exact ⟨link, found, target⟩

/-- When every recorded wait goes to a smaller rank, the walk returns within
one round more than the rank it starts from. -/
theorem ldlmFlockDeadlock_run_of_ranked (rank : UInt64 × Nat → Nat)
    (lower : ∀ source target, FlockWaits server source target → rank target < rank source)
    (blLock : FlockLock) (fuel : Nat) (enough : rank (blLock.owner, blLock.lExport) < fuel) :
    ∃ found, ldlmFlockDeadlock fuel server req blLock = some found := by
  have ranked := @Loop.run_of_ranked _ _ (ldlmFlockDeadlockBody server req)
    (fun n state => rank state = n) (fun _ => True) (by
      intro n state atRank
      cases goes : ldlmFlockDeadlockBody server req state with
      | inl found => exact .inl ⟨found, rfl, trivial⟩
      | inr next =>
        exact .inr ⟨rank next, next, atRank ▸ lower state next (.of_body goes), rfl, rfl⟩)
    _ _ rfl fuel enough
  obtain ⟨found, -, ran⟩ := ranked
  exact ⟨found, ran⟩

/-- A "deadlock" answer stands on a path of recorded waits from the blocking
owner to the requesting owner, on the request's NID. -/
theorem ldlmFlockDeadlock_path_of_true {fuel : Nat} {blLock : FlockLock}
    (answers : ldlmFlockDeadlock fuel server req blLock = some (some true)) :
    ∃ exp, Relation.TransGen (FlockWaits server) (blLock.owner, blLock.lExport) (req.owner, exp) ∧
      (server.exportOf exp).nid = (server.exportOf req.lExport).nid := by
  unfold ldlmFlockDeadlock at answers
  generalize (blLock.owner, blLock.lExport) = state at answers ⊢
  -- induction on the rounds, each either the last or one edge of the path
  induction fuel generalizing state with
  | zero => cases answers
  | succ fuel ih =>
    cases goes : ldlmFlockDeadlockBody server req state with
    | inl found =>
      rw [Loop.run_succ_of_leave goes, Option.some.injEq] at answers
      obtain ⟨link, lookedUp, owner, nid⟩ :=
        ldlmFlockDeadlockBody_eq_inl_true (answers ▸ goes)
      exact ⟨link.blockingExport, .single ⟨link, lookedUp, by rw [owner]⟩, nid⟩
    | inr next =>
      rw [Loop.run_succ_of_next goes] at answers
      obtain ⟨exp, path, nid⟩ := ih next answers
      exact ⟨exp, .head (.of_body goes) path, nid⟩

/-- From a set of (owner, export) pairs whose every entry leads back into the
set, without reaching the request, a failed export or the requesting owner, the
walk never returns. -/
theorem ldlmFlockDeadlock_eq_none_of_closed (inside : UInt64 × Nat → Prop)
    (closed : ∀ state, inside state → ∃ link, ldlmFlockLookup server state.1 state.2 = some link ∧
      link.handle ≠ req.handle ∧ (server.exportOf link.blockingExport).failed = false ∧
      ¬(link.blockingOwner = req.owner ∧
        (server.exportOf link.blockingExport).nid = (server.exportOf req.lExport).nid) ∧
      inside (link.blockingOwner, link.blockingExport))
    {blLock : FlockLock} (start : inside (blLock.owner, blLock.lExport)) (fuel : Nat) :
    ldlmFlockDeadlock fuel server req blLock = none := by
  apply Loop.run_eq_none_of_closed inside _ fuel _ start
  intro state isInside
  obtain ⟨link, found, notReq, alive, notBack, next⟩ := closed state isInside
  exact ⟨_, ldlmFlockDeadlockBody_eq_inr_iff.2 ⟨link, found, notReq, alive, notBack, rfl⟩, next⟩

end Walk

/-- A first enqueue that meets a conflicting lock and whose deadlock walk does
not return never returns either. -/
theorem ldlmProcessFlockLock_eq_none_of_walk {fuel : Nat} {server : FlockServer} {name : Nat}
    {req lock : FlockLock} {linked : FlockServer} (notNl : req.mode ≠ .nl)
    (conflict : (server.resources name).lrGranted.find? (flockConflicts req) = some lock)
    (link : ldlmFlockBlockingLink server req lock = some linked)
    (walk : ldlmFlockDeadlock fuel linked req lock = none) :
    ldlmProcessFlockLock fuel server name req 0 true = none := by
  have noReproc : (0 : UInt64) ≠ ldlmFlWaitNoreproc := by decide
  have pass : flockPass fuel server name 0 true ⟨req, .req, req.mode = .nl, 0⟩ none none = none := by
    simp only [flockPass, noReproc, notNl, or_self, if_false, Option.getD_none, if_true, conflict,
      UInt64.zero_and, ne_eq, not_true_eq_false, link, walk, Option.bind_some]
  simp only [ldlmProcessFlockLock, ldlmProcessFlockLockCore, pass, Option.bind_none]

/-- Four owners on four clients, each with its own export. -/
def flockDemoExports : List FlockExport :=
  [⟨1, 1, false, true⟩, ⟨2, 2, false, true⟩, ⟨3, 3, false, true⟩, ⟨4, 4, false, true⟩]

/-- After these enqueues and one cancel, two owners, 10 and 30, wait for each
other in the hash; owner 10 waits on resources 2 and 1, and the grant of its
request on resource 1 uncovers its older entry on resource 2. -/
def flockDemoEvents : List FlockEvent :=
  [.enqueue 100 3 1 10 .pw 0 10 0, .enqueue 100 2 3 30 .pw 0 10 0, .enqueue 100 1 2 20 .pw 0 10 0,
    .enqueue 100 2 1 10 .pw 0 10 0, .enqueue 100 1 1 10 .pw 0 10 0, .enqueue 100 3 3 30 .pw 0 10 0,
    .cancel 100 1 3]

/-- The server after `flockDemoEvents`. -/
def flockDemoServer : FlockServer :=
  (Machine.run flockStep (some (flockServerInit flockDemoExports)) flockDemoEvents).getD
    (flockServerInit flockDemoExports)

theorem flockDeadlock_walk_never_returns :
    Machine.Reachable flockStep Machine.anyEvent (some (flockServerInit flockDemoExports))
        (some flockDemoServer) ∧
      ∀ fuel, ldlmFlockDeadlock fuel
          { flockDemoServer with
            nextHandle := flockDemoServer.nextHandle + 1
            links := ⟨4, 40, flockDemoServer.nextHandle, 10, 1⟩ :: flockDemoServer.links }
          ⟨flockDemoServer.nextHandle, 4, 40, .pw, 0, 10⟩ ⟨1, 1, 10, .pw, 0, 10⟩ = none ∧
        flockStep (some flockDemoServer) (.enqueue fuel 3 4 40 .pw 0 10 0) = none := by
  refine ⟨?_, fun fuel => ?_⟩
  · have ran : Machine.run flockStep (some (flockServerInit flockDemoExports)) flockDemoEvents =
        some flockDemoServer := by
      have isSome : (Machine.run flockStep (some (flockServerInit flockDemoExports))
        flockDemoEvents).isSome := by decide
      rw [flockDemoServer]
      generalize Machine.run flockStep (some (flockServerInit flockDemoExports)) flockDemoEvents = reached
        at isSome
      cases reached with
      | none => cases isSome
      | some server => rfl
    exact ran ▸ Machine.Reachable.start.run flockDemoEvents
  -- owners 10 (export 1) and 30 (export 3) each find the other's wait
  have walk : ldlmFlockDeadlock fuel
      { flockDemoServer with
        nextHandle := flockDemoServer.nextHandle + 1
        links := ⟨4, 40, flockDemoServer.nextHandle, 10, 1⟩ :: flockDemoServer.links }
      ⟨flockDemoServer.nextHandle, 4, 40, .pw, 0, 10⟩ ⟨1, 1, 10, .pw, 0, 10⟩ = none := by
    apply ldlmFlockDeadlock_eq_none_of_closed (fun state => state = (10, 1) ∨ state = (30, 3)) _
      (.inl rfl)
    rintro state (rfl | rfl)
    · exact ⟨⟨1, 10, 4, 30, 3⟩, by decide, by decide, by decide, by decide, .inr rfl⟩
    · exact ⟨⟨3, 30, 6, 10, 1⟩, by decide, by decide, by decide, by decide, .inl rfl⟩
  refine ⟨walk, ?_⟩
  show (ldlmProcessFlockLock fuel { flockDemoServer with nextHandle := flockDemoServer.nextHandle + 1 } 3
    ⟨flockDemoServer.nextHandle, 4, 40, .pw, 0, 10⟩ 0 true).map (·.1) = none
  rw [ldlmProcessFlockLock_eq_none_of_walk (by decide) (by decide) rfl walk, Option.map_none]

end Lustre.Ldlm
