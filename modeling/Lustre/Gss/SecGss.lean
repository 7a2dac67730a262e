import Lustre.Library.Run

/-!
# The GSS anti-replay window

A GSS server context keeps, for each client context, the highest sequence
number seen and a bitmap of the numbers seen just below it
(`struct gss_svc_seq_data`): a main window of `GSS_SEQ_WIN_MAIN` bits and a
backup window of `GSS_SEQ_WIN_BACK` bits for requests that fall behind the
main one.  `gss_svc_verify_request` checks a request's number twice: a
phase-0 check before the signature is verified, which only tests bits, and a
final check afterwards, which records the number.

The model keeps the source's 32-bit arithmetic.  Above the window the code
compares `seq_num >= *max_seq + win_size` and behind it
`seq_num + win_size <= *max_seq`, both in `__u32`.  When the numbers stay
below `2^32 - GSS_SEQ_WIN_MAIN` these sums cannot wrap, and the module proves
that the window is exact and that no accepted number is accepted again.  Near
`2^32` the first sum wraps, the window is cleared although the numbers it
held are still inside it, and a replayed number passes both checks.
-/

namespace Lustre
namespace SecGss

/-! ## The window and one check -/

/-- `GSS_SEQ_WIN_MAIN`. -/
def gssSeqWinMain : UInt32 := 2048

/-- `GSS_SEQ_WIN_BACK`. -/
def gssSeqWinBack : UInt32 := 128

/-- A bitmap `unsigned long window[]`, bit `i` at index `i`. -/
abbrev Bitmap := Nat → Bool

/-- `__set_bit`. -/
def setBit (window : Bitmap) (nr : Nat) : Bitmap :=
  Function.update window nr true

theorem setBit_eq (window : Bitmap) (nr : Nat) : setBit window nr = Function.update window nr true := rfl

/-- `__clear_bit`. -/
def clearBit (window : Bitmap) (nr : Nat) : Bitmap :=
  Function.update window nr false

/-- The `phase` argument of `gss_do_check_seq`: 0 is the check before the
signature is verified, 1 the final check against the main window, 2 the
final check against the backup window. -/
inductive CheckPhase
  | phase0
  | phase1
  | phase2
  deriving DecidableEq, Repr

/-- The state one call of `gss_do_check_seq` updates: `*max_seq` and the
window it points to. -/
structure SeqWindow where
  /-- `*max_seq`. -/
  maxSeq : UInt32
  /-- `window`. -/
  window : Bitmap

/-- The advance loop `while (*max_seq < seq_num) { (*max_seq)++;
__clear_bit(*max_seq % win_size, window); }`, run with a budget that the
caller makes large enough (`seq_num - *max_seq` iterations). -/
def advanceWindow (winSize seqNum : UInt32) : Nat → SeqWindow → SeqWindow
  | 0, state => state
  | fuel + 1, state =>
      if state.maxSeq < seqNum then
        advanceWindow winSize seqNum fuel
          { maxSeq := state.maxSeq + 1
            window := clearBit state.window ((state.maxSeq + 1) % winSize).toNat }
      else state

/-- `gss_do_check_seq`: the return code (0 accepted, -1 replay, 1 behind the
window in phase 1) and the updated window. -/
def gssDoCheckSeq (winSize : UInt32) (state : SeqWindow) (seqNum : UInt32)
    (phase : CheckPhase) : Int × SeqWindow :=
  if state.maxSeq < seqNum then
    -- 1. high above the window
    if phase = .phase0 then (0, state)
    else
      let advanced :=
        if state.maxSeq + winSize ≤ seqNum then
          { maxSeq := seqNum, window := fun _ => false }
        else advanceWindow winSize seqNum (seqNum - state.maxSeq).toNat state
      (0, { advanced with window := setBit advanced.window (seqNum % winSize).toNat })
  else if seqNum + winSize ≤ state.maxSeq then
    -- 2. low behind the window
    if phase = .phase1 then (1, state) else (-1, state)
  else
    -- 3. fit into the window
    let bit := (seqNum % winSize).toNat
    match phase with
    | .phase0 => if state.window bit then (-1, state) else (0, state)
    | .phase1 | .phase2 =>
        if state.window bit then (-1, state)
        else (0, { state with window := setBit state.window bit })

/-- `struct gss_svc_seq_data`. -/
structure GssSvcSeqData where
  /-- `ssd_max_main` and `ssd_win_main`. -/
  main : SeqWindow
  /-- `ssd_max_back` and `ssd_win_back`. -/
  back : SeqWindow

/-- A zeroed `gss_svc_seq_data`, as a new context starts. -/
def GssSvcSeqData.zero : GssSvcSeqData :=
  { main := { maxSeq := 0, window := fun _ => false }
    back := { maxSeq := 0, window := fun _ => false } }

/-- `gss_check_seq_num`: a phase-0 check when `set` is false; otherwise the
main window, and the backup window for numbers behind the main one. -/
def gssCheckSeqNum (ssd : GssSvcSeqData) (seqNum : UInt32) (set : Bool) :
    Int × GssSvcSeqData :=
  if !set then
    let main := gssDoCheckSeq gssSeqWinMain ssd.main seqNum .phase0
    (main.1, { ssd with main := main.2 })
  else
    let main := gssDoCheckSeq gssSeqWinMain ssd.main seqNum .phase1
    if main.1 = -1 ∨ main.1 = 0 then (main.1, { ssd with main := main.2 })
    else
      let back := gssDoCheckSeq gssSeqWinBack ssd.back seqNum .phase2
      (back.1, { main := main.2, back := back.2 })

theorem gssCheckSeqNum_false (ssd : GssSvcSeqData) (seqNum : UInt32) :
    gssCheckSeqNum ssd seqNum false =
      ((gssDoCheckSeq gssSeqWinMain ssd.main seqNum .phase0).1,
        { ssd with main := (gssDoCheckSeq gssSeqWinMain ssd.main seqNum .phase0).2 }) := rfl

theorem gssCheckSeqNum_true (ssd : GssSvcSeqData) (seqNum : UInt32) :
    gssCheckSeqNum ssd seqNum true =
      let main := gssDoCheckSeq gssSeqWinMain ssd.main seqNum .phase1
      if main.1 = -1 ∨ main.1 = 0 then (main.1, { ssd with main := main.2 })
      else
        let back := gssDoCheckSeq gssSeqWinBack ssd.back seqNum .phase2
        (back.1, { main := main.2, back := back.2 }) := rfl

/-! ## Requests against one context -/

/-- The server's sequence data together with the numbers that final checks
have accepted, by the window that accepted them. -/
structure Monitor where
  /-- The context's `gss_svc_seq_data`. -/
  ssd : GssSvcSeqData
  /-- Numbers a final check accepted through the main window. -/
  acceptedMain : List UInt32
  /-- Numbers a final check accepted through the backup window. -/
  acceptedBack : List UInt32

/-- A new context: zeroed sequence data, nothing accepted. -/
def Monitor.start : Monitor :=
  { ssd := GssSvcSeqData.zero, acceptedMain := [], acceptedBack := [] }

/-- A call `gss_check_seq_num(ssd, seq_num, set)` as `gss_svc_verify_request`
makes it: `set` is false for the phase-0 check and true for the final check. -/
structure Call where
  /-- `gw_seq`. -/
  seqNum : UInt32
  /-- The `set` argument. -/
  set : Bool

/-- One call, with the accepted number recorded when a final check returns 0. -/
def Monitor.step (monitor : Monitor) (call : Call) : Monitor :=
  let result := gssCheckSeqNum monitor.ssd call.seqNum call.set
  let viaMain :=
    (gssDoCheckSeq gssSeqWinMain monitor.ssd.main call.seqNum .phase1).1 = 0
  if call.set ∧ result.1 = 0 then
    if viaMain then
      { ssd := result.2, acceptedMain := call.seqNum :: monitor.acceptedMain,
        acceptedBack := monitor.acceptedBack }
    else
      { ssd := result.2, acceptedMain := monitor.acceptedMain,
        acceptedBack := call.seqNum :: monitor.acceptedBack }
  else { monitor with ssd := result.2 }

theorem Monitor.step_eq (monitor : Monitor) (call : Call) :
    monitor.step call =
      let result := gssCheckSeqNum monitor.ssd call.seqNum call.set
      let viaMain := (gssDoCheckSeq gssSeqWinMain monitor.ssd.main call.seqNum .phase1).1 = 0
      if call.set ∧ result.1 = 0 then
        if viaMain then
          { ssd := result.2, acceptedMain := call.seqNum :: monitor.acceptedMain,
            acceptedBack := monitor.acceptedBack }
        else
          { ssd := result.2, acceptedMain := monitor.acceptedMain,
            acceptedBack := call.seqNum :: monitor.acceptedBack }
      else { monitor with ssd := result.2 } := rfl

/-- The comment of `struct gss_svc_seq_data`: for every `i` with
`ssd_max_main - GSS_SEQ_WIN_MAIN < i <= ssd_max_main`, bit `i` of the main
window is set iff `i` has been accepted through it. -/
def Monitor.MainWindowExact (monitor : Monitor) : Prop :=
  ∀ i : Nat, i ≤ monitor.ssd.main.maxSeq.toNat →
    monitor.ssd.main.maxSeq.toNat < i + gssSeqWinMain.toNat →
    (monitor.ssd.main.window (i % gssSeqWinMain.toNat) = true ↔
      ∃ accepted ∈ monitor.acceptedMain, accepted.toNat = i)

/-- The values `gss_check_seq_num` returns to a sequence of calls. -/
def returnCodes : GssSvcSeqData → List Call → List Int
  | _, [] => []
  | ssd, call :: calls =>
    let result := gssCheckSeqNum ssd call.seqNum call.set
    result.1 :: returnCodes result.2 calls

/-! ## Below the wrap

The lemmas here describe one check of the main window when neither
`*max_seq + win_size` nor `seq_num + win_size` reaches `2^32`, so that the
`__u32` comparisons of `gss_do_check_seq` are the comparisons of the numbers. -/

@[simp] theorem gssSeqWinMain_toNat : gssSeqWinMain.toNat = 2048 := rfl

/-- The advance loop stops at `seq_num` and clears exactly the bits of
`*max_seq + 1, ..., seq_num`. -/
theorem advanceWindow_spec (winSize seqNum : UInt32) (fuel : Nat) (state : SeqWindow)
    (reaches : state.maxSeq.toNat + fuel = seqNum.toNat) :
    (advanceWindow winSize seqNum fuel state).maxSeq = seqNum ∧
      ∀ j, (advanceWindow winSize seqNum fuel state).window j = true ↔
        state.window j = true ∧
          ∀ k, state.maxSeq.toNat < k → k ≤ seqNum.toNat → k % winSize.toNat ≠ j := by
  induction fuel generalizing state with
  | zero =>
      simp only [advanceWindow]
      refine ⟨UInt32.toNat_inj.mp (by simpa using reaches), fun j => ?_⟩
      exact ⟨fun set => ⟨set, fun k above below => by omega⟩, fun cleared => cleared.1⟩
  | succ fuel ih =>
      have below : state.maxSeq < seqNum := UInt32.lt_iff_toNat_lt.mpr (by omega)
      have seqSmall := seqNum.toNat_lt
      have next : (state.maxSeq + 1).toNat = state.maxSeq.toNat + 1 := by
        rw [UInt32.toNat_add, UInt32.toNat_one]
        exact Nat.mod_eq_of_lt (by omega)
      obtain ⟨reachesSeq, clearedLater⟩ := ih
        { maxSeq := state.maxSeq + 1
          window := clearBit state.window ((state.maxSeq + 1) % winSize).toNat }
        (by simp only [next]; omega)
      simp only [advanceWindow, if_pos below]
      refine ⟨reachesSeq, fun j => ?_⟩
      rw [clearedLater j]
      simp only [clearBit, next, UInt32.toNat_mod, Function.update_apply]
      -- the bit cleared by this iteration is the one of `*max_seq + 1`
      by_cases cleared : j = (state.maxSeq.toNat + 1) % winSize.toNat
      · simp only [if_pos cleared, Bool.false_eq_true, false_and, false_iff, not_and]
        intro _ clear
        exact clear (state.maxSeq.toNat + 1) (by omega) (by omega) cleared.symm
      · simp only [if_neg cleared]
        constructor
        · rintro ⟨set, clear⟩
          refine ⟨set, fun k above atMost => ?_⟩
          rcases Nat.lt_or_ge (state.maxSeq.toNat + 1) k with far | near
          · exact clear k far atMost
          · obtain rfl : k = state.maxSeq.toNat + 1 := by omega
            exact Ne.symm cleared
        · rintro ⟨set, clear⟩
          exact ⟨set, fun k above atMost => clear k (by omega) atMost⟩

/-- A phase-0 check only tests bits. -/
@[simp] theorem gssDoCheckSeq_phase0_snd (winSize : UInt32) (state : SeqWindow)
    (seqNum : UInt32) : (gssDoCheckSeq winSize state seqNum .phase0).2 = state := by
  delta gssDoCheckSeq
  by_cases above : state.maxSeq < seqNum
  · simp [above]
  · by_cases behind : seqNum + winSize ≤ state.maxSeq
    · simp [above, behind]
    · simp only [if_neg above, if_neg behind]
      split <;> rfl

theorem add_gssSeqWinMain_toNat (x : UInt32) (noWrap : x.toNat + 2048 < 2 ^ 32) :
    (x + gssSeqWinMain).toNat = x.toNat + 2048 := by
  rw [UInt32.toNat_add, gssSeqWinMain_toNat]
  exact Nat.mod_eq_of_lt noWrap

/-- Case 1 of `gss_do_check_seq` on the main window: the window moves up to
`seq_num`, the bits it passes over are cleared and the bit of `seq_num` set. -/
theorem gssDoCheckSeq_main_above {state : SeqWindow} {seqNum : UInt32} {phase : CheckPhase}
    (maxNoWrap : state.maxSeq.toNat + 2048 < 2 ^ 32)
    (above : state.maxSeq.toNat < seqNum.toNat) (final : phase ≠ .phase0) :
    (gssDoCheckSeq gssSeqWinMain state seqNum phase).1 = 0 ∧
      (gssDoCheckSeq gssSeqWinMain state seqNum phase).2.maxSeq = seqNum ∧
      ∀ i, (gssDoCheckSeq gssSeqWinMain state seqNum phase).2.window (i % 2048) = true ↔
        i % 2048 = seqNum.toNat % 2048 ∨
          (state.window (i % 2048) = true ∧
            ∀ k, state.maxSeq.toNat < k → k ≤ seqNum.toNat → k % 2048 ≠ i % 2048) := by
  have aboveWord : state.maxSeq < seqNum := UInt32.lt_iff_toNat_lt.mpr above
  have memsetIff : state.maxSeq + gssSeqWinMain ≤ seqNum ↔
      state.maxSeq.toNat + 2048 ≤ seqNum.toNat := by
    rw [UInt32.le_iff_toNat_le, add_gssSeqWinMain_toNat _ maxNoWrap]
  delta gssDoCheckSeq
  simp only [if_pos aboveWord, if_neg final]
  by_cases memset : state.maxSeq.toNat + 2048 ≤ seqNum.toNat
  · -- the memset branch: every residue is passed over
    simp only [if_pos (memsetIff.mpr memset)]
    refine ⟨trivial, trivial, fun i => ?_⟩
    have passed : ∃ k, state.maxSeq.toNat < k ∧ k ≤ seqNum.toNat ∧ k % 2048 = i % 2048 :=
      ⟨seqNum.toNat - (seqNum.toNat % 2048 + 2048 - i % 2048) % 2048,
        by omega, by omega, by omega⟩
    obtain ⟨k, afterMax, atMost, sameBit⟩ := passed
    simp only [setBit_eq, Function.update_apply, UInt32.toNat_mod, gssSeqWinMain_toNat]
    by_cases hit : i % 2048 = seqNum.toNat % 2048
    · simp [hit]
    · simp only [hit, if_false, Bool.false_eq_true, false_or, false_iff, not_and]
      exact fun _ clear => clear k afterMax atMost sameBit
  · -- the advance loop
    simp only [if_neg (mt memsetIff.mp memset)]
    have fuel : state.maxSeq.toNat + (seqNum - state.maxSeq).toNat = seqNum.toNat := by
      rw [UInt32.toNat_sub_of_le _ _ (UInt32.le_of_lt aboveWord)]
      omega
    obtain ⟨reachesSeq, cleared⟩ := advanceWindow_spec gssSeqWinMain seqNum _ state fuel
    refine ⟨trivial, reachesSeq, fun i => ?_⟩
    simp only [setBit_eq, Function.update_apply, UInt32.toNat_mod, gssSeqWinMain_toNat]
    by_cases hit : i % 2048 = seqNum.toNat % 2048
    · simp [hit]
    · simp only [hit, if_false, false_or, cleared, gssSeqWinMain_toNat]

/-- Case 2 of `gss_do_check_seq` on the main window: nothing changes. -/
theorem gssDoCheckSeq_main_behind {state : SeqWindow} {seqNum : UInt32} (phase : CheckPhase)
    (seqNoWrap : seqNum.toNat + 2048 < 2 ^ 32)
    (behind : seqNum.toNat + 2048 ≤ state.maxSeq.toNat) :
    gssDoCheckSeq gssSeqWinMain state seqNum phase =
      (if phase = .phase1 then 1 else -1, state) := by
  have notAbove : ¬ state.maxSeq < seqNum := by
    rw [UInt32.lt_iff_toNat_lt]
    omega
  have behindWord : seqNum + gssSeqWinMain ≤ state.maxSeq := by
    rw [UInt32.le_iff_toNat_le, add_gssSeqWinMain_toNat _ seqNoWrap]
    exact behind
  delta gssDoCheckSeq
  simp only [if_neg notAbove, if_pos behindWord]
  split_ifs <;> rfl

/-- Case 3 of `gss_do_check_seq` on the main window: a set bit is a replay;
otherwise a final check sets it. -/
theorem gssDoCheckSeq_main_inside {state : SeqWindow} {seqNum : UInt32} (phase : CheckPhase)
    (seqNoWrap : seqNum.toNat + 2048 < 2 ^ 32)
    (atMost : seqNum.toNat ≤ state.maxSeq.toNat)
    (inside : state.maxSeq.toNat < seqNum.toNat + 2048) :
    gssDoCheckSeq gssSeqWinMain state seqNum phase =
      if state.window (seqNum.toNat % 2048) then (-1, state)
      else if phase = .phase0 then (0, state)
      else (0, { state with window := setBit state.window (seqNum.toNat % 2048) }) := by
  have notAbove : ¬ state.maxSeq < seqNum := by
    rw [UInt32.lt_iff_toNat_lt]
    omega
  have notBehind : ¬ seqNum + gssSeqWinMain ≤ state.maxSeq := by
    rw [UInt32.le_iff_toNat_le, add_gssSeqWinMain_toNat _ seqNoWrap]
    omega
  simp only [gssDoCheckSeq, if_neg notAbove, if_neg notBehind, UInt32.toNat_mod,
    gssSeqWinMain_toNat]
  cases phase with
  | phase0 => rfl
  | phase1 => rfl
  | phase2 => rfl

/-! ## The window is exact below the wrap -/

/-- What holds of a context all of whose calls stay below the wrap: the
comment of `struct gss_svc_seq_data`, and where the accepted numbers lie. -/
structure Monitor.Sound (monitor : Monitor) : Prop where
  maxNoWrap : monitor.ssd.main.maxSeq.toNat + 2048 < 2 ^ 32
  mainAtMost : ∀ a ∈ monitor.acceptedMain, a.toNat ≤ monitor.ssd.main.maxSeq.toNat
  backBehind : ∀ a ∈ monitor.acceptedBack, a.toNat + 2048 ≤ monitor.ssd.main.maxSeq.toNat
  exact : monitor.MainWindowExact

theorem Monitor.sound_start : Monitor.start.Sound where
  maxNoWrap := by decide
  mainAtMost := by simp [Monitor.start]
  backBehind := by simp [Monitor.start]
  exact := by
    intro i _ _
    simp [Monitor.start, GssSvcSeqData.zero]

/-- A phase-0 check leaves the context as it was. -/
@[simp] theorem Monitor.step_phase0 (monitor : Monitor) (seqNum : UInt32) :
    monitor.step ⟨seqNum, false⟩ = monitor := by
  simp [Monitor.step_eq, gssCheckSeqNum_false]

/-- A call that leaves the main window and its accepted numbers alone, and
accepts through the backup window only numbers behind the main one, keeps
the context sound. -/
theorem Monitor.Sound.of_main_unchanged {monitor next : Monitor} (sound : monitor.Sound)
    (mainSame : next.ssd.main = monitor.ssd.main)
    (acceptedSame : next.acceptedMain = monitor.acceptedMain)
    (backBehind : ∀ a ∈ next.acceptedBack,
      a ∈ monitor.acceptedBack ∨ a.toNat + 2048 ≤ monitor.ssd.main.maxSeq.toNat) :
    next.Sound where
  maxNoWrap := mainSame ▸ sound.maxNoWrap
  mainAtMost := mainSame ▸ acceptedSame ▸ sound.mainAtMost
  backBehind a mem := by
    rw [mainSame]
    rcases backBehind a mem with old | behind
    · exact sound.backBehind a old
    · exact behind
  exact := by
    unfold Monitor.MainWindowExact
    rw [mainSame, acceptedSame]
    exact sound.exact

section FinalCheck

variable {monitor : Monitor} {seqNum : UInt32}

/-- A final check of a number behind the main window only touches the
backup window. -/
theorem Monitor.Sound.final_behind (sound : monitor.Sound)
    (seqNoWrap : seqNum.toNat + 2048 < 2 ^ 32)
    (behind : seqNum.toNat + 2048 ≤ monitor.ssd.main.maxSeq.toNat) :
    (monitor.step ⟨seqNum, true⟩).Sound := by
  have mainEq := gssDoCheckSeq_main_behind .phase1 seqNoWrap behind
  simp only [if_true] at mainEq
  -- the result is the backup window's
  have stepEq : monitor.step ⟨seqNum, true⟩ =
      { ssd := { main := monitor.ssd.main
                 back := (gssDoCheckSeq gssSeqWinBack monitor.ssd.back seqNum .phase2).2 }
        acceptedMain := monitor.acceptedMain
        acceptedBack :=
          if (gssDoCheckSeq gssSeqWinBack monitor.ssd.back seqNum .phase2).1 = 0 then
            seqNum :: monitor.acceptedBack
          else monitor.acceptedBack } := by
    simp only [Monitor.step_eq, gssCheckSeqNum_true, mainEq]
    split_ifs <;> simp_all
  rw [stepEq]
  refine sound.of_main_unchanged rfl rfl fun a mem => ?_
  split_ifs at mem
  · rcases List.mem_cons.mp mem with rfl | old
    · exact Or.inr behind
    · exact Or.inl old
  · exact Or.inl mem

/-- A final check inside the main window sets the bit of a new number and
rejects one whose bit is set. -/
theorem Monitor.Sound.final_inside (sound : monitor.Sound)
    (seqNoWrap : seqNum.toNat + 2048 < 2 ^ 32)
    (atMost : seqNum.toNat ≤ monitor.ssd.main.maxSeq.toNat)
    (inside : monitor.ssd.main.maxSeq.toNat < seqNum.toNat + 2048) :
    (monitor.step ⟨seqNum, true⟩).Sound := by
  have mainEq := gssDoCheckSeq_main_inside .phase1 seqNoWrap atMost inside
  by_cases seen : monitor.ssd.main.window (seqNum.toNat % 2048) = true
  · -- a replay: nothing changes
    simp only [seen, if_true] at mainEq
    have stepEq : monitor.step ⟨seqNum, true⟩ = monitor := by
      simp [Monitor.step_eq, gssCheckSeqNum_true, mainEq]
    rw [stepEq]
    exact sound
  · -- a new number: its bit is set and nothing else moves
    simp only [seen, Bool.false_eq_true, if_false, reduceCtorEq] at mainEq
    have stepEq : monitor.step ⟨seqNum, true⟩ =
        { ssd := { monitor.ssd with
            main := { monitor.ssd.main with
              window := setBit monitor.ssd.main.window (seqNum.toNat % 2048) } }
          acceptedMain := seqNum :: monitor.acceptedMain
          acceptedBack := monitor.acceptedBack } := by
      simp [Monitor.step_eq, gssCheckSeqNum_true, mainEq]
    rw [stepEq]
    refine ⟨sound.maxNoWrap, ?_, sound.backBehind, ?_⟩
    · simp only [List.mem_cons, forall_eq_or_imp]
      exact ⟨atMost, sound.mainAtMost⟩
    · intro i iAtMost iInside
      simp only [gssSeqWinMain_toNat] at iAtMost iInside ⊢
      simp only [setBit_eq, Function.update_apply, List.mem_cons, exists_eq_or_imp]
      by_cases same : i = seqNum.toNat
      · simp [same]
      · have otherBit : i % 2048 ≠ seqNum.toNat % 2048 := by omega
        have old := sound.exact i iAtMost (by simpa using iInside)
        simp only [gssSeqWinMain_toNat] at old
        simp only [otherBit, if_false, old]
        constructor
        · exact Or.inr
        · rintro (sameNum | found)
          · exact absurd sameNum.symm same
          · exact found

/-- A final check above the main window moves it up to the new number. -/
theorem Monitor.Sound.final_above (sound : monitor.Sound)
    (seqNoWrap : seqNum.toNat + 2048 < 2 ^ 32)
    (above : monitor.ssd.main.maxSeq.toNat < seqNum.toNat) :
    (monitor.step ⟨seqNum, true⟩).Sound := by
  obtain ⟨accepted, maxEq, windowEq⟩ := gssDoCheckSeq_main_above sound.maxNoWrap above
    (by decide : CheckPhase.phase1 ≠ .phase0)
  have stepEq : monitor.step ⟨seqNum, true⟩ =
      { ssd := { monitor.ssd with
          main := (gssDoCheckSeq gssSeqWinMain monitor.ssd.main seqNum .phase1).2 }
        acceptedMain := seqNum :: monitor.acceptedMain
        acceptedBack := monitor.acceptedBack } := by
    simp [Monitor.step_eq, gssCheckSeqNum_true, accepted]
  rw [stepEq]
  refine ⟨?_, ?_, ?_, ?_⟩ <;> simp only [maxEq]
  · exact seqNoWrap
  · simp only [List.mem_cons, forall_eq_or_imp]
    exact ⟨Nat.le_refl _, fun a mem => Nat.le_trans (sound.mainAtMost a mem) (Nat.le_of_lt above)⟩
  · exact fun a mem => Nat.le_trans (sound.backBehind a mem) (Nat.le_of_lt above)
  · intro i iAtMost iInside
    simp only [maxEq, gssSeqWinMain_toNat] at iAtMost iInside ⊢
    rw [windowEq i]
    simp only [List.mem_cons, exists_eq_or_imp]
    rcases Nat.lt_or_ge monitor.ssd.main.maxSeq.toNat i with passed | old
    · -- numbers the window passed over: only the new one is set
      have notAccepted : ¬ ∃ a ∈ monitor.acceptedMain, a.toNat = i := by
        rintro ⟨a, mem, rfl⟩
        exact absurd (sound.mainAtMost a mem) (Nat.not_le.mpr passed)
      have notKept : ¬ ∀ k, monitor.ssd.main.maxSeq.toNat < k → k ≤ seqNum.toNat →
          k % 2048 ≠ i % 2048 := fun clear => clear i passed iAtMost rfl
      simp only [notAccepted, notKept, and_false, or_false]
      omega
    · -- numbers still inside: their bits are kept
      have kept : ∀ k, monitor.ssd.main.maxSeq.toNat < k → k ≤ seqNum.toNat →
          k % 2048 ≠ i % 2048 := fun k _ _ => by omega
      have otherBit : i % 2048 ≠ seqNum.toNat % 2048 := by omega
      have otherNum : seqNum.toNat ≠ i := by omega
      have oldExact := sound.exact i old (by simp only [gssSeqWinMain_toNat]; omega)
      simp only [gssSeqWinMain_toNat] at oldExact
      simp only [otherBit, otherNum, false_or, oldExact]
      exact ⟨fun keptOld => keptOld.1, fun found => ⟨found, kept⟩⟩

end FinalCheck

/-- No call below the wrap breaks soundness. -/
theorem Monitor.Sound.step {monitor : Monitor} (sound : monitor.Sound) (call : Call)
    (noWrap : call.seqNum.toNat + 2048 < 2 ^ 32) : (monitor.step call).Sound := by
  obtain ⟨seqNum, set⟩ := call
  cases set with
  | false => simpa using sound
  | true =>
      rcases Nat.lt_or_ge monitor.ssd.main.maxSeq.toNat seqNum.toNat with above | atMost
      · exact sound.final_above noWrap above
      · rcases Nat.lt_or_ge monitor.ssd.main.maxSeq.toNat (seqNum.toNat + 2048)
          with inside | behind
        · exact sound.final_inside noWrap atMost inside
        · exact sound.final_behind noWrap behind

/-- A phase-0 check of a sound context rejects every number a final check
has accepted. -/
theorem Monitor.Sound.replay_rejected {monitor : Monitor} (sound : monitor.Sound) (a : UInt32)
    (accepted : a ∈ monitor.acceptedMain ∨ a ∈ monitor.acceptedBack) :
    (gssCheckSeqNum monitor.ssd a false).1 = -1 := by
  have atMost : a.toNat ≤ monitor.ssd.main.maxSeq.toNat := by
    rcases accepted with viaMain | viaBack
    · exact sound.mainAtMost a viaMain
    · have := sound.backBehind a viaBack
      omega
  have noWrap : a.toNat + 2048 < 2 ^ 32 := by
    have := sound.maxNoWrap
    omega
  simp only [gssCheckSeqNum_false]
  rcases Nat.lt_or_ge monitor.ssd.main.maxSeq.toNat (a.toNat + 2048) with inside | behind
  · -- inside the window the bit of an accepted number is set
    have viaMain : a ∈ monitor.acceptedMain := by
      rcases accepted with viaMain | viaBack
      · exact viaMain
      · have := sound.backBehind a viaBack
        omega
    have seen : monitor.ssd.main.window (a.toNat % 2048) = true := by
      have exact := sound.exact a.toNat atMost (by simpa using inside)
      simp only [gssSeqWinMain_toNat] at exact
      exact exact.mpr ⟨a, viaMain, rfl⟩
    rw [gssDoCheckSeq_main_inside .phase0 noWrap atMost inside, if_pos seen]
  · rw [gssDoCheckSeq_main_behind .phase0 noWrap behind]
    rfl

/-- The calls that keep `seq_num + GSS_SEQ_WIN_MAIN` below `2^32`. -/
def belowWrap (_ : Monitor) (call : Call) : Prop :=
  call.seqNum.toNat + gssSeqWinMain.toNat < 2 ^ 32

/-- Below the wrap the anti-replay window does its job: after any sequence
of calls from a new context, in any order, the main window is exact and a
phase-0 check rejects every number a final check has accepted. -/
theorem Monitor.window_exact_and_replay_rejected {monitor : Monitor}
    (reachable : Machine.Reachable Monitor.step belowWrap Monitor.start monitor) :
    monitor.MainWindowExact ∧
      ∀ a, a ∈ monitor.acceptedMain ∨ a ∈ monitor.acceptedBack →
        (gssCheckSeqNum monitor.ssd a false).1 = -1 := by
  have sound : monitor.Sound :=
    reachable.invariant Monitor.Sound Monitor.sound_start
      fun _ call sound noWrap => sound.step call noWrap
  exact ⟨sound.exact, sound.replay_rejected⟩

theorem Monitor.window_exact_and_replay_rejected_after_one_request :
    let monitor := Monitor.step (Monitor.step Monitor.start ⟨5, false⟩) ⟨5, true⟩
    monitor.MainWindowExact ∧
      ∀ a, a ∈ monitor.acceptedMain ∨ a ∈ monitor.acceptedBack →
        (gssCheckSeqNum monitor.ssd a false).1 = -1 :=
  Monitor.window_exact_and_replay_rejected
    ((Machine.Reachable.start.step (⟨5, false⟩ : Call) (by unfold belowWrap; decide)).step ⟨5, true⟩
      (by unfold belowWrap; decide))

/-! ## The window near the top of the sequence space

`*max_seq + win_size` is computed in `__u32`. Once `ssd_max_main` is within
`GSS_SEQ_WIN_MAIN` of `2^32`, the sum wraps, so every later request with a
larger number takes the `memset` branch and clears the bits of numbers that
are still inside the window. -/

/-- Three requests near `2^32`, each checked in phase 0 and then finally,
followed by a replay of the first. -/
def replayCalls : List Call :=
  [⟨4294965247, false⟩, ⟨4294965247, true⟩, ⟨4294965249, false⟩, ⟨4294965249, true⟩,
    ⟨4294965250, false⟩, ⟨4294965250, true⟩]

theorem gssCheckSeqNum_accepts_replay :
    returnCodes GssSvcSeqData.zero (replayCalls ++ [⟨4294965247, false⟩, ⟨4294965247, true⟩]) =
        [0, 0, 0, 0, 0, 0, 0, 0] ∧
      4294965247 ∈ (Machine.run Monitor.step Monitor.start replayCalls).acceptedMain ∧
      ¬ (Machine.run Monitor.step Monitor.start replayCalls).MainWindowExact := by
  refine ⟨by decide, by decide, fun exact => ?_⟩
  have stillInside := exact 4294965247 (by decide) (by decide)
  revert stillInside
  decide

end SecGss
end Lustre
