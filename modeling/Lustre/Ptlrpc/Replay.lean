import Mathlib.Data.List.Basic
import Lustre.Library.Run

/-!
# Replay lists of a client import

A client keeps every request that the server may have to replay after a
failover on one of two lists of its `obd_import`.  `after_reply` retains a
request with a transaction number on `imp_replay_list`, which
`ptlrpc_retain_replayable_request` keeps sorted by `(rq_transno, rq_xid)`.
`ptlrpc_free_committed` walks that list up to the server's last committed
transaction: committed requests are freed, except those with `rq_replay`
(opens that are not yet closed), which it moves to the tail of
`imp_committed_list`.  After a reconnect, `ptlrpc_replay_next` picks the next
request to replay from `imp_committed_list` (looking only at its tail to
decide whether anything is left there) and then from `imp_replay_list`.

The model keeps the requests themselves in the lists, each with the fields
these functions read.  `LBUG` and `LASSERT` failures are `none`.  The module
proves that `imp_replay_list` stays sorted over every run.  It then exhibits
a run where a retained open with a lower transaction number reaches the tail
of `imp_committed_list` behind a higher one, so that list is unsorted and
recovery never replays the lower open.
-/

namespace Lustre
namespace Replay

/-! ## Requests and imports -/

/-- The fields of `struct ptlrpc_request` that the replay lists use. -/
structure PtlrpcRequest where
  /-- `rq_xid`. -/
  xid : Nat
  /-- `rq_transno`, as the server assigned it. -/
  transno : Nat
  /-- `rq_replay`: keep the request after it commits (an open not yet closed). -/
  replay : Bool
  /-- `rq_import_generation`. -/
  importGeneration : Nat
  deriving DecidableEq, Repr

/-- The order of the replay lists: by `rq_transno`, ties by `rq_xid`. -/
def PtlrpcRequest.Before (a b : PtlrpcRequest) : Prop :=
  a.transno < b.transno ∨ (a.transno = b.transno ∧ a.xid < b.xid)

instance : DecidableRel PtlrpcRequest.Before := fun a b =>
  inferInstanceAs (Decidable (a.transno < b.transno ∨ (a.transno = b.transno ∧ a.xid < b.xid)))

/-- The fields of `struct obd_import` that the replay lists use. -/
structure ObdImport where
  /-- `imp_replay_list`, from head to tail. -/
  replayList : List PtlrpcRequest
  /-- `imp_committed_list`, from head to tail. -/
  committedList : List PtlrpcRequest
  /-- `imp_peer_committed_transno`. -/
  peerCommittedTransno : Nat
  /-- `imp_last_transno_checked`. -/
  lastTransnoChecked : Nat
  /-- `imp_last_generation_checked`. -/
  lastGenerationChecked : Nat
  /-- `imp_generation`. -/
  generation : Nat
  /-- `imp_replayable`. -/
  replayable : Bool
  /-- `imp_replay_cursor`: the `rq_xid` of the request it points at, `none`
  for the list head `&imp->imp_committed_list`. -/
  replayCursor : Option Nat
  /-- `imp_last_replay_transno`. -/
  lastReplayTransno : Nat
  /-- `imp_resend_replay`. -/
  resendReplay : Bool
  deriving DecidableEq, Repr

/-- A new replayable import. -/
def ObdImport.new : ObdImport where
  replayList := []
  committedList := []
  peerCommittedTransno := 0
  lastTransnoChecked := 0
  lastGenerationChecked := 0
  generation := 0
  replayable := true
  replayCursor := none
  lastReplayTransno := 0
  resendReplay := false

/-- `!list_empty(&req->rq_replay_list)`: the request is on one of the lists. -/
def ObdImport.holds (imp : ObdImport) (xid : Nat) : Bool :=
  (imp.replayList ++ imp.committedList).any (·.xid == xid)

/-! ## Retaining a request -/

/-- The scan `list_for_each_prev(tmp, &imp->imp_replay_list)` of
`ptlrpc_retain_replayable_request`, over the list from its tail.  The request
goes right after the first entry that does not sort after it, or at the head
of the list; two entries with one transno and one xid are an `LASSERT`. -/
def insertFromTail (req : PtlrpcRequest) :
    List PtlrpcRequest → Option (List PtlrpcRequest)
  | [] => some [req]
  | iter :: earlier =>
    if iter.transno > req.transno then (insertFromTail req earlier).map (iter :: ·)
    else if iter.transno = req.transno then
      if iter.xid = req.xid then none
      else if iter.xid > req.xid then (insertFromTail req earlier).map (iter :: ·)
      else some (req :: iter :: earlier)
    else some (req :: iter :: earlier)

/-- `ptlrpc_retain_replayable_request`. -/
def retainReplayableRequest (req : PtlrpcRequest) (imp : ObdImport) : Option ObdImport :=
  if req.transno = 0 then none
  -- don't re-add requests that have been replayed
  else if imp.holds req.xid then some imp
  else if !imp.replayable then none
  else (insertFromTail req imp.replayList.reverse).map fun fromTail =>
    { imp with replayList := fromTail.reverse }

/-! ## Freeing committed requests -/

/-- The walk over `imp_replay_list` in `ptlrpc_free_committed`: the requests
left on the list, and those moved to the tail of `imp_committed_list`, in the
order they are moved. -/
def walkReplayList (generation peerCommitted : Nat) :
    List PtlrpcRequest → Option (List PtlrpcRequest × List PtlrpcRequest)
  | [] => some ([], [])
  | req :: rest =>
    if req.transno = 0 then none
    else if req.importGeneration < generation then
      walkReplayList generation peerCommitted rest
    -- not yet committed: stop the search
    else if req.transno > peerCommitted then some (req :: rest, [])
    else if req.replay then
      (walkReplayList generation peerCommitted rest).map fun (kept, moved) =>
        (kept, req :: moved)
    else walkReplayList generation peerCommitted rest

/-- The walk over `imp_committed_list` in `ptlrpc_free_committed`: stale
opens and closed opens are freed. -/
def pruneCommittedList (generation : Nat) :
    List PtlrpcRequest → Option (List PtlrpcRequest)
  | [] => some []
  | req :: rest =>
    if req.transno = 0 then none
    else if req.importGeneration < generation ∨ !req.replay then
      pruneCommittedList generation rest
    else (pruneCommittedList generation rest).map (req :: ·)

/-- `ptlrpc_free_committed`. -/
def freeCommitted (imp : ObdImport) : Option ObdImport :=
  if imp.peerCommittedTransno = imp.lastTransnoChecked ∧
      imp.generation = imp.lastGenerationChecked then some imp
  else
    let skipCommittedList :=
      !(imp.generation ≠ imp.lastGenerationChecked ∨ imp.lastTransnoChecked = 0)
    (walkReplayList imp.generation imp.peerCommittedTransno imp.replayList).bind
      fun (kept, moved) =>
        let committed := imp.committedList ++ moved
        let pruned :=
          if skipCommittedList then some committed
          else pruneCommittedList imp.generation committed
        pruned.map fun committedList =>
          { imp with
            replayList := kept
            committedList := committedList
            lastTransnoChecked := imp.peerCommittedTransno
            lastGenerationChecked := imp.generation }

/-! ## Replies -/

/-- The retention step of `after_reply` for a reply to `req` carrying the
server's `last_committed`. -/
def afterReply (imp : ObdImport) (req : PtlrpcRequest) (lastCommitted : Nat) :
    Option ObdImport :=
  if imp.replayable then
    let retained :=
      if req.transno ≠ 0 ∧ (req.transno > lastCommitted ∨ req.replay) then
        retainReplayableRequest req imp
      else some imp
    retained.bind fun imp =>
      freeCommitted
        (if lastCommitted > imp.peerCommittedTransno then
          { imp with peerCommittedTransno := lastCommitted }
        else imp)
  else some imp

/-- `req->rq_replay = replay` for the request with `rq_xid = xid`, as a close
does for its open. -/
def setReplay (xid : Nat) (replay : Bool) (list : List PtlrpcRequest) :
    List PtlrpcRequest :=
  list.map fun req => if req.xid = xid then { req with replay := replay } else req

/-- What happens to an import between reconnects. -/
inductive ImportEvent
  /-- The reply to a request arrives, carrying `last_committed`. -/
  | reply (req : PtlrpcRequest) (lastCommitted : Nat)
  /-- A call of `ptlrpc_free_committed`. -/
  | freeCommitted
  /-- `rq_replay` of a request is set or cleared. -/
  | setReplay (xid : Nat) (replay : Bool)
  deriving DecidableEq, Repr

/-- One event; `none` is an `LBUG` or a failed `LASSERT`, and stays. -/
def ImportEvent.apply : Option ObdImport → ImportEvent → Option ObdImport
  | none, _ => none
  | some imp, .reply req lastCommitted => afterReply imp req lastCommitted
  | some imp, .freeCommitted => Replay.freeCommitted imp
  | some imp, .setReplay xid replay =>
    some { imp with
      replayList := Replay.setReplay xid replay imp.replayList
      committedList := Replay.setReplay xid replay imp.committedList }

/-! ## Recovery -/

/-- `imp_replay_cursor->next`. -/
def nextCursor (committed : List PtlrpcRequest) : Option Nat → Option Nat
  | none => committed.head?.map (·.xid)
  | some xid =>
    match committed.dropWhile (·.xid ≠ xid) with
    | _ :: next :: _ => some next.xid
    | _ => none

/-- The request the cursor points at. -/
def cursorRequest (committed : List PtlrpcRequest) (xid : Nat) : Option PtlrpcRequest :=
  committed.find? (·.xid = xid)

/-- The loop `while (imp->imp_replay_cursor != &imp->imp_committed_list)` of
`ptlrpc_replay_next`, with `req` as the loop leaves it; one round per entry
of the list is enough. -/
def scanCommitted (committed : List PtlrpcRequest) (lastTransno : Nat) :
    Nat → Option Nat → Option PtlrpcRequest → Option Nat × Option PtlrpcRequest
  | 0, cursor, req => (cursor, req)
  | fuel + 1, cursor, req =>
    match cursor with
    | none => (none, req)
    | some xid =>
      match cursorRequest committed xid with
      | none => (none, req)
      | some entry =>
        if entry.transno > lastTransno then (cursor, some entry)
        else scanCommitted committed lastTransno fuel (nextCursor committed cursor) none

/-- `ptlrpc_replay_next`: the import after the call and the request it sends,
if any. -/
def replayNext (imp : ObdImport) : Option (ObdImport × Option PtlrpcRequest) :=
  (freeCommitted { imp with lastTransnoChecked := 0 }).map fun imp =>
    let lastTransno := imp.lastReplayTransno
    -- replay all the committed open requests on committed_list first
    let (cursor, fromCommitted) :=
      match imp.committedList.getLast? with
      | none => (imp.replayCursor, none)
      | some last =>
        if last.transno > lastTransno then
          let cursor :=
            if !imp.resendReplay || imp.replayCursor = none then
              nextCursor imp.committedList imp.replayCursor
            else imp.replayCursor
          scanCommitted imp.committedList lastTransno (imp.committedList.length + 1)
            cursor (some last)
        -- all requests on committed_list have been replayed
        else (none, none)
    let req :=
      match fromCommitted with
      | some req => some req
      | none => imp.replayList.find? (·.transno > lastTransno)
    ({ imp with replayCursor := cursor, resendReplay := false }, req)

/-- Recovery after a reconnect: `imp_last_replay_transno = 0`, the cursor at
the list head, then `ptlrpc_replay_next` until it sends nothing, each reply
to a replayed request setting `imp_last_replay_transno` to its transno.  The
result is the requests replayed, in order. -/
def replayAll : Nat → ObdImport → Option (List PtlrpcRequest)
  | 0, _ => some []
  | fuel + 1, imp =>
    (replayNext imp).bind fun (imp, req) =>
      match req with
      | none => some []
      | some req =>
        (replayAll fuel { imp with lastReplayTransno := req.transno }).map (req :: ·)

/-- The state `ptlrpc_connect_interpret` sets when recovery starts. -/
def ObdImport.startRecovery (imp : ObdImport) : ObdImport :=
  { imp with lastReplayTransno := 0, replayCursor := none }

/-! ## `imp_replay_list` stays sorted -/

theorem PtlrpcRequest.Before.trans {a b c : PtlrpcRequest} (first : a.Before b)
    (second : b.Before c) : a.Before c := by
  unfold PtlrpcRequest.Before at *
  omega

/-- The scan puts the request in and keeps every entry it passes. -/
theorem mem_of_insertFromTail {req : PtlrpcRequest} {fromTail inserted : List PtlrpcRequest}
    (done : insertFromTail req fromTail = some inserted) :
    ∀ x ∈ inserted, x = req ∨ x ∈ fromTail := by
  induction fromTail generalizing inserted with
  | nil =>
      simp only [insertFromTail, Option.some.injEq] at done
      subst done
      simp
  | cons iter earlier ih =>
      have passed : (insertFromTail req earlier).map (iter :: ·) = some inserted →
          ∀ x ∈ inserted, x = req ∨ x ∈ iter :: earlier := by
        intro mapped x mem
        obtain ⟨rest, restDone, rfl⟩ := Option.map_eq_some_iff.mp mapped
        rcases List.mem_cons.mp mem with rfl | inRest
        · exact Or.inr List.mem_cons_self
        · exact (ih restDone x inRest).imp_right (List.mem_cons_of_mem _)
      have placed : some (req :: iter :: earlier) = some inserted →
          ∀ x ∈ inserted, x = req ∨ x ∈ iter :: earlier := by
        rintro ⟨⟩ x mem
        exact List.mem_cons.mp mem
      unfold insertFromTail at done
      split_ifs at done
      · exact passed done
      · exact passed done
      · exact placed done
      · exact placed done

/-- Read from its tail, a sorted list stays sorted when the scan puts a
request in. -/
theorem insertFromTail_sorted {req : PtlrpcRequest} {fromTail inserted : List PtlrpcRequest}
    (sorted : fromTail.Pairwise (flip PtlrpcRequest.Before))
    (done : insertFromTail req fromTail = some inserted) :
    inserted.Pairwise (flip PtlrpcRequest.Before) := by
  induction fromTail generalizing inserted with
  | nil =>
      simp only [insertFromTail, Option.some.injEq] at done
      subst done
      exact List.pairwise_singleton _ _
  | cons iter earlier ih =>
      obtain ⟨iterAfterEarlier, earlierSorted⟩ := List.pairwise_cons.mp sorted
      -- the scan passes `iter` when it sorts after the request
      have passed : req.Before iter →
          (insertFromTail req earlier).map (iter :: ·) = some inserted →
          inserted.Pairwise (flip PtlrpcRequest.Before) := by
        intro reqBefore mapped
        obtain ⟨rest, restDone, rfl⟩ := Option.map_eq_some_iff.mp mapped
        refine List.pairwise_cons.mpr ⟨fun x mem => ?_, ih earlierSorted restDone⟩
        rcases mem_of_insertFromTail restDone x mem with rfl | inEarlier
        · exact reqBefore
        · exact iterAfterEarlier x inEarlier
      -- and stops at the first entry that sorts before it
      have placed : iter.Before req → some (req :: iter :: earlier) = some inserted →
          inserted.Pairwise (flip PtlrpcRequest.Before) := by
        rintro iterBefore ⟨⟩
        refine List.pairwise_cons.mpr ⟨fun x mem => ?_, sorted⟩
        rcases List.mem_cons.mp mem with rfl | inEarlier
        · exact iterBefore
        · exact PtlrpcRequest.Before.trans (iterAfterEarlier x inEarlier) iterBefore
      unfold insertFromTail at done
      split_ifs at done with later same sameXid laterXid
      · exact passed (Or.inl later) done
      · exact passed (Or.inr ⟨same.symm, laterXid⟩) done
      · exact placed (Or.inr ⟨same, by omega⟩) done
      · exact placed (Or.inl (by omega)) done

/-- The walk of `ptlrpc_free_committed` only removes requests from
`imp_replay_list`. -/
theorem walkReplayList_sublist {generation peerCommitted : Nat}
    {list kept moved : List PtlrpcRequest}
    (done : walkReplayList generation peerCommitted list = some (kept, moved)) :
    kept.Sublist list := by
  induction list generalizing kept moved with
  | nil =>
      simp only [walkReplayList, Option.some.injEq, Prod.mk.injEq] at done
      rw [done.1]
  | cons req rest ih =>
      unfold walkReplayList at done
      split_ifs at done
      · exact (ih done).cons req
      · simp only [Option.some.injEq, Prod.mk.injEq] at done
        rw [done.1]
      · obtain ⟨⟨kept', moved'⟩, restDone, walked⟩ := Option.map_eq_some_iff.mp done
        simp only [Prod.mk.injEq] at walked
        rw [← walked.1]
        exact (ih restDone).cons req
      · exact (ih done).cons req

theorem freeCommitted_sublist {imp freed : ObdImport} (done : freeCommitted imp = some freed) :
    freed.replayList.Sublist imp.replayList := by
  unfold freeCommitted at done
  split_ifs at done
  · simp only [Option.some.injEq] at done
    rw [done]
  · obtain ⟨⟨kept, moved⟩, walked, pruned⟩ := Option.bind_eq_some_iff.mp done
    obtain ⟨committed, -, rfl⟩ := Option.map_eq_some_iff.mp pruned
    exact walkReplayList_sublist walked

theorem retainReplayableRequest_sorted {req : PtlrpcRequest} {imp retained : ObdImport}
    (sorted : imp.replayList.Pairwise PtlrpcRequest.Before)
    (done : retainReplayableRequest req imp = some retained) :
    retained.replayList.Pairwise PtlrpcRequest.Before := by
  unfold retainReplayableRequest at done
  split_ifs at done
  · simp only [Option.some.injEq] at done
    rw [← done]
    exact sorted
  · obtain ⟨fromTail, inserted, rfl⟩ := Option.map_eq_some_iff.mp done
    exact List.pairwise_reverse.mpr
      (insertFromTail_sorted (List.pairwise_reverse.mpr sorted) inserted)

theorem freeCommitted_sorted {imp freed : ObdImport}
    (sorted : imp.replayList.Pairwise PtlrpcRequest.Before)
    (done : freeCommitted imp = some freed) :
    freed.replayList.Pairwise PtlrpcRequest.Before :=
  sorted.sublist (freeCommitted_sublist done)

theorem afterReply_sorted {imp replied : ObdImport} {req : PtlrpcRequest} {lastCommitted : Nat}
    (sorted : imp.replayList.Pairwise PtlrpcRequest.Before)
    (done : afterReply imp req lastCommitted = some replied) :
    replied.replayList.Pairwise PtlrpcRequest.Before := by
  -- raising `imp_peer_committed_transno` does not touch the list
  have freedSorted : ∀ {retained : ObdImport},
      retained.replayList.Pairwise PtlrpcRequest.Before →
      freeCommitted
        (if lastCommitted > retained.peerCommittedTransno then
          { retained with peerCommittedTransno := lastCommitted }
        else retained) = some replied →
      replied.replayList.Pairwise PtlrpcRequest.Before := by
    intro retained retainedSorted freed
    refine freeCommitted_sorted ?_ freed
    split_ifs <;> exact retainedSorted
  unfold afterReply at done
  split_ifs at done
  · obtain ⟨retained, retainedDone, freed⟩ := Option.bind_eq_some_iff.mp done
    exact freedSorted (retainReplayableRequest_sorted sorted retainedDone) freed
  · exact freedSorted sorted done
  · rw [← Option.some.inj done]
    exact sorted

/-- `imp_replay_list` is sorted, or an assertion has failed. -/
def ReplayListSorted : Option ObdImport → Prop
  | none => True
  | some imp => imp.replayList.Pairwise PtlrpcRequest.Before

theorem ReplayListSorted.apply {state : Option ObdImport} (sorted : ReplayListSorted state)
    (event : ImportEvent) : ReplayListSorted (event.apply state) := by
  match state, event with
  | none, _ => trivial
  | some imp, .reply req lastCommitted =>
      show ReplayListSorted (afterReply imp req lastCommitted)
      cases replied : afterReply imp req lastCommitted with
      | none => trivial
      | some replied' => exact afterReply_sorted sorted replied
  | some imp, .freeCommitted =>
      show ReplayListSorted (freeCommitted imp)
      cases freed : freeCommitted imp with
      | none => trivial
      | some freed' => exact freeCommitted_sorted sorted freed
  | some imp, .setReplay xid replay =>
      -- `rq_replay` is not part of the order
      show (Replay.setReplay xid replay imp.replayList).Pairwise PtlrpcRequest.Before
      refine List.pairwise_map.mpr (sorted.imp fun {a b} before => ?_)
      split_ifs <;> exact before

/-- Over any sequence of replies, `ptlrpc_free_committed` calls and changes
of `rq_replay`, `imp_replay_list` stays sorted by `(rq_transno, rq_xid)`. -/
theorem replayList_sorted (events : List ImportEvent) :
    ReplayListSorted (Machine.run ImportEvent.apply (some ObdImport.new) events) :=
  Machine.Reachable.invariant ReplayListSorted
    (show ReplayListSorted (some ObdImport.new) from List.Pairwise.nil)
    (fun _ event sorted _ => sorted.apply event)
    (Machine.Reachable.start.run events)

/-! ## An open that recovery misses

The server gives transno 1 to the open `openLow` and transno 2 to the open
`openHigh`; the reply to `openHigh` arrives first and already reports
transno 2 as committed, so `ptlrpc_free_committed` moves `openHigh` to
`imp_committed_list`.  The reply to `openLow` retains it on
`imp_replay_list`, but the same `last_committed` makes
`ptlrpc_free_committed` skip its walk.  A later reply with a higher
`last_committed` then moves `openLow` to the tail of `imp_committed_list`,
behind `openHigh`. -/

/-- An open with transno 2. -/
def openHigh : PtlrpcRequest := { xid := 1, transno := 2, replay := true, importGeneration := 0 }

/-- An open with transno 1, whose reply arrives after that of `openHigh`. -/
def openLow : PtlrpcRequest := { xid := 2, transno := 1, replay := true, importGeneration := 0 }

/-- A request that is not kept for replay, with transno 3. -/
def laterWrite : PtlrpcRequest := { xid := 3, transno := 3, replay := false, importGeneration := 0 }

/-- The replies, each with the highest transno issued so far as
`last_committed`. -/
def missedOpenEvents : List ImportEvent :=
  [.reply openHigh 2, .reply openLow 2, .reply laterWrite 3]

theorem replayNext_misses_lower_open :
    ∃ imp, Machine.run ImportEvent.apply (some ObdImport.new) missedOpenEvents = some imp ∧
      imp.committedList = [openHigh, openLow] ∧
      ¬ imp.committedList.Pairwise PtlrpcRequest.Before ∧
      replayAll 10 imp.startRecovery = some [openHigh] := by
  refine ⟨_, rfl, ?_, ?_, ?_⟩ <;> decide

end Replay
end Lustre
