import Mathlib.Order.Monotone.Basic
import Mathlib.Data.Nat.Basic
import Mathlib.Data.Nat.Count

/-!
# Round-robin striping

A file striped in chunks of `s` bytes over `c` targets, round robin (RAID-0):
byte `x` of the file lies on target `target s c x`, at offset `objOffset s c x`
there, and offset `y` of target `k` holds byte `fileOffset s c k y` of the
file.  The maps are inverse to each other.  On one target the file offset grows
strictly with the object offset, so the offsets of a target that hold bytes of
a range of the file are themselves a range: from the first offset at or after
the range's start (`ceilOffset`) to the last one at or before its end.

The same periodic layout describes a strided reader that reads the first `p`
of every `l` pages: the numbers below `e` in that pattern are `p` for every
whole period and the first `p` offsets of the last one (`count_mod_lt`).
-/

namespace Raid0

/-- The target that holds byte `x`. -/
def target (s c x : Nat) : Nat := x % (s * c) / s

/-- The offset of byte `x` on its target. -/
def objOffset (s c x : Nat) : Nat := x / (s * c) * s + x % (s * c) % s

/-- The byte of the file at offset `y` of target `k`. -/
def fileOffset (s c k y : Nat) : Nat := y / s * (s * c) + k * s + y % s

theorem fileOffset_eq (s c k y : Nat) : fileOffset s c k y = y / s * (s * c) + k * s + y % s :=
  rfl

/-- The first offset of target `k` whose byte is `x` or comes after it. -/
def ceilOffset (s c k x : Nat) : Nat :=
  if x % (s * c) < k * s then x / (s * c) * s
  else if s ≤ x % (s * c) - k * s then x / (s * c) * s + s
  else x / (s * c) * s + (x % (s * c) - k * s)

section

variable {s c k : Nat}

/-- Within a round, a target's chunk ends before the round does. -/
theorem chunk_lt_width (hk : k < c) {b : Nat} (hb : b < s) : k * s + b < s * c := by
  have : (k + 1) * s ≤ c * s := Nat.mul_le_mul_right s hk
  rw [Nat.add_mul, Nat.one_mul, Nat.mul_comm c s] at this
  omega

/-- The bytes of a target in earlier rounds come before a round's first byte. -/
theorem fileOffset_lt_of_div_lt (hk : k < c) (hs : 0 < s) {y q : Nat} (earlier : y / s < q) :
    fileOffset s c k y < q * (s * c) := by
  have inChunk := chunk_lt_width hk (Nat.mod_lt y hs)
  have rounds : (y / s + 1) * (s * c) ≤ q * (s * c) := Nat.mul_le_mul_right _ earlier
  rw [Nat.add_mul, Nat.one_mul] at rounds
  simp only [fileOffset_eq]
  omega

theorem target_lt (hs : 0 < s) (hc : 0 < c) (x : Nat) : target s c x < c := by
  unfold target
  rw [Nat.div_lt_iff_lt_mul hs, Nat.mul_comm c s]
  exact Nat.mod_lt x (Nat.mul_pos hs hc)

theorem fileOffset_target_objOffset (hs : 0 < s) (x : Nat) :
    fileOffset s c (target s c x) (objOffset s c x) = x := by
  have inChunk : x % (s * c) % s < s := Nat.mod_lt _ hs
  have div : objOffset s c x / s = x / (s * c) := by
    rw [objOffset, Nat.add_comm, Nat.add_mul_div_right _ _ hs, Nat.div_eq_of_lt inChunk, Nat.zero_add]
  have mod : objOffset s c x % s = x % (s * c) % s := by
    rw [objOffset, Nat.add_comm, Nat.add_mul_mod_self_right, Nat.mod_eq_of_lt inChunk]
  rw [fileOffset_eq, div, mod, target, Nat.add_assoc, Nat.div_add_mod', Nat.div_add_mod']

theorem target_fileOffset (hs : 0 < s) (hk : k < c) (y : Nat) : target s c (fileOffset s c k y) = k := by
  have inChunk := chunk_lt_width hk (Nat.mod_lt y hs)
  rw [target, fileOffset_eq, Nat.add_assoc, Nat.mul_add_mod_of_lt inChunk,
    Nat.add_comm, Nat.add_mul_div_right _ _ hs, Nat.div_eq_of_lt (Nat.mod_lt y hs), Nat.zero_add]

theorem objOffset_fileOffset (hs : 0 < s) (hk : k < c) (y : Nat) : objOffset s c (fileOffset s c k y) = y := by
  have inChunk := chunk_lt_width hk (Nat.mod_lt y hs)
  have div : fileOffset s c k y / (s * c) = y / s := by
    rw [fileOffset_eq, Nat.add_assoc, Nat.add_comm, Nat.add_mul_div_right _ _ (Nat.mul_pos hs (by omega)),
      Nat.div_eq_of_lt inChunk, Nat.zero_add]
  have mod : fileOffset s c k y % (s * c) % s = y % s := by
    rw [fileOffset_eq, Nat.add_assoc, Nat.mul_add_mod_of_lt inChunk, Nat.add_comm,
      Nat.add_mul_mod_self_right, Nat.mod_mod]
  rw [objOffset, div, mod, Nat.div_add_mod']

/-- On one target, later offsets hold later bytes of the file. -/
theorem fileOffset_strictMono (hs : 0 < s) (hk : k < c) : StrictMono (fileOffset s c k) := by
  intro y y' earlier
  by_cases sameRound : y / s = y' / s
  · have split := Nat.div_add_mod' y s
    have split' := Nat.div_add_mod' y' s
    simp only [fileOffset_eq]
    rw [sameRound] at split ⊢
    omega
  · have roundLt : y / s < y' / s := Nat.lt_of_le_of_ne (Nat.div_le_div_right (Nat.le_of_lt earlier)) sameRound
    calc fileOffset s c k y < y' / s * (s * c) := fileOffset_lt_of_div_lt hk hs roundLt
      _ ≤ fileOffset s c k y' := by simp only [fileOffset_eq]; omega

/-- Byte `x` lies on target `k` exactly when its place in its round falls in
`k`'s chunk. -/
theorem target_eq_iff (hs : 0 < s) {x : Nat} :
    target s c x = k ↔ k * s ≤ x % (s * c) ∧ x % (s * c) - k * s < s := by
  have lower : k ≤ x % (s * c) / s ↔ k * s ≤ x % (s * c) := Nat.le_div_iff_mul_le hs
  have upper : x % (s * c) / s < k + 1 ↔ x % (s * c) < (k + 1) * s := Nat.div_lt_iff_lt_mul hs
  rw [Nat.add_mul, Nat.one_mul] at upper
  unfold target
  omega

/-- A byte whose offset on a target is at most `y` of that target's bytes comes
no later than the bytes of `y`'s round. -/
theorem fileOffset_lt_of_round {x y : Nat} (hs : 0 < s) (hk : k < c) (roundLe : y / s ≤ x / (s * c))
    (inRound : y / s = x / (s * c) → k * s + y % s < x % (s * c)) : fileOffset s c k y < x := by
  have split := Nat.div_add_mod' x (s * c)
  rcases Nat.lt_or_eq_of_le roundLe with earlier | same
  · have := fileOffset_lt_of_div_lt hk hs earlier
    omega
  · have inside := inRound same
    simp only [fileOffset_eq]
    rw [same]
    omega

/-- Every offset of target `k` before `ceilOffset` holds a byte before `x`. -/
theorem fileOffset_lt_of_lt_ceilOffset {x y : Nat} (hs : 0 < s) (hk : k < c) (before : y < ceilOffset s c k x) :
    fileOffset s c k y < x := by
  have inChunk := Nat.mod_lt y hs
  have split := Nat.div_add_mod' y s
  unfold ceilOffset at before
  split_ifs at before with early late
  · -- `x` comes before `k`'s chunk of its round: only earlier rounds are before it
    have earlier : y / s < x / (s * c) := (Nat.div_lt_iff_lt_mul hs).2 before
    exact fileOffset_lt_of_round hs hk (Nat.le_of_lt earlier) (fun same => absurd same (Nat.ne_of_lt earlier))
  · -- `x` comes after `k`'s chunk: the whole chunk of its round is before it
    have roundLe : y / s < x / (s * c) + 1 := (Nat.div_lt_iff_lt_mul hs).2 (by rw [Nat.add_mul, Nat.one_mul]; omega)
    exact fileOffset_lt_of_round hs hk (by omega) (fun _ => by omega)
  · -- `x` is in `k`'s chunk: the bytes before it in the chunk are before it
    have roundLe : y / s < x / (s * c) + 1 := (Nat.div_lt_iff_lt_mul hs).2 (by rw [Nat.add_mul, Nat.one_mul]; omega)
    refine fileOffset_lt_of_round hs hk (by omega) fun same => ?_
    rw [same] at split
    omega

/-- The byte at `ceilOffset` is `x` itself when `x` lies on target `k`. -/
theorem fileOffset_ceilOffset_of_target {x : Nat} (hs : 0 < s) (onTarget : target s c x = k) :
    fileOffset s c k (ceilOffset s c k x) = x := by
  obtain ⟨lower, upper⟩ := (target_eq_iff hs).1 onTarget
  have split := Nat.div_add_mod' x (s * c)
  obtain ⟨div, mod⟩ := (Nat.div_mod_unique hs).2
    ⟨(by rw [Nat.mul_comm s (x / (s * c))]; omega : x % (s * c) - k * s + s * (x / (s * c)) =
      x / (s * c) * s + (x % (s * c) - k * s)), upper⟩
  rw [ceilOffset, if_neg (Nat.not_lt.2 lower), if_neg (Nat.not_le.2 upper), fileOffset_eq, div, mod]
  omega

/-- The byte at `ceilOffset` comes after `x` when `x` lies on another target. -/
theorem lt_fileOffset_ceilOffset {x : Nat} (hs : 0 < s) (hk : k < c) (offTarget : target s c x ≠ k) :
    x < fileOffset s c k (ceilOffset s c k x) := by
  have split := Nat.div_add_mod' x (s * c)
  have inRound := Nat.mod_lt x (Nat.mul_pos hs (Nat.lt_of_le_of_lt (Nat.zero_le k) hk))
  have roundStart : ∀ q, fileOffset s c k (q * s) = q * (s * c) + k * s := by
    intro q
    rw [fileOffset_eq, Nat.mul_div_cancel q hs, Nat.mul_mod_left, Nat.add_zero]
  unfold ceilOffset
  split_ifs with early late
  · rw [roundStart]
    omega
  · have nextRound : x / (s * c) * s + s = (x / (s * c) + 1) * s := by rw [Nat.add_mul, Nat.one_mul]
    have width : x / (s * c) * (s * c) + s * c ≤ (x / (s * c) + 1) * (s * c) + k * s := by
      rw [Nat.add_mul, Nat.one_mul]
      omega
    rw [nextRound, roundStart]
    omega
  · exact absurd ((target_eq_iff hs).2 ⟨Nat.not_lt.1 early, Nat.not_le.1 late⟩) offTarget

/-- The first offset at or after a byte is never past the byte itself. -/
theorem ceilOffset_le (hc : 0 < c) (x : Nat) : ceilOffset s c k x ≤ x := by
  have split := Nat.div_add_mod' x (s * c)
  have rowLe : x / (s * c) * s ≤ x / (s * c) * (s * c) := Nat.mul_le_mul_left _ (Nat.le_mul_of_pos_right s hc)
  unfold ceilOffset
  split_ifs <;> omega

/-- The byte at `ceilOffset` is `x` or comes after it. -/
theorem le_fileOffset_ceilOffset {x : Nat} (hs : 0 < s) (hk : k < c) :
    x ≤ fileOffset s c k (ceilOffset s c k x) := by
  by_cases onTarget : target s c x = k
  · exact Nat.le_of_eq (fileOffset_ceilOffset_of_target hs onTarget).symm
  · exact Nat.le_of_lt (lt_fileOffset_ceilOffset hs hk onTarget)

section Ranges

variable {x y : Nat} (hs : 0 < s) (hk : k < c)
include hs hk

/-- The offsets of target `k` holding byte `x` or a later one are those from
`ceilOffset` on. -/
theorem le_fileOffset_iff : x ≤ fileOffset s c k y ↔ ceilOffset s c k x ≤ y := by
  constructor
  · intro after
    by_contra before
    exact Nat.lt_irrefl x (Nat.lt_of_le_of_lt after (fileOffset_lt_of_lt_ceilOffset hs hk (Nat.lt_of_not_le before)))
  · intro ceilLe
    exact Nat.le_trans (le_fileOffset_ceilOffset hs hk) ((fileOffset_strictMono hs hk).monotone ceilLe)

/-- When `x` lies on target `k`, the offsets holding `x` or an earlier byte
are those up to `ceilOffset`. -/
theorem fileOffset_le_iff_of_target (onTarget : target s c x = k) :
    fileOffset s c k y ≤ x ↔ y ≤ ceilOffset s c k x := by
  conv_lhs => rw [← fileOffset_ceilOffset_of_target hs onTarget]
  exact (fileOffset_strictMono hs hk).le_iff_le

/-- When `x` lies on another target, the offsets holding a byte before `x` are
those before `ceilOffset`. -/
theorem fileOffset_le_iff_of_ne (offTarget : target s c x ≠ k) :
    fileOffset s c k y ≤ x ↔ y < ceilOffset s c k x := by
  constructor
  · intro before
    by_contra after
    have := lt_fileOffset_ceilOffset hs hk offTarget
    have := (fileOffset_strictMono hs hk).monotone (Nat.le_of_not_lt after)
    omega
  · intro below
    exact Nat.le_of_lt (fileOffset_lt_of_lt_ceilOffset hs hk below)

theorem ceilOffset_mono {x' : Nat} (le : x ≤ x') : ceilOffset s c k x ≤ ceilOffset s c k x' :=
  (le_fileOffset_iff hs hk).1 (Nat.le_trans le (le_fileOffset_ceilOffset hs hk))

/-- Some byte of `[a, b]` lies on target `k` exactly when some offset of `k`
holds a byte of `[a, b]`. -/
theorem exists_target_iff_exists_fileOffset {a b : Nat} :
    (∃ x, a ≤ x ∧ x ≤ b ∧ target s c x = k) ↔ ∃ y, a ≤ fileOffset s c k y ∧ fileOffset s c k y ≤ b := by
  constructor
  · rintro ⟨x, low, high, onTarget⟩
    refine ⟨objOffset s c x, ?_⟩
    rw [← onTarget, fileOffset_target_objOffset hs]
    exact ⟨low, high⟩
  · rintro ⟨y, low, high⟩
    exact ⟨fileOffset s c k y, low, high, target_fileOffset hs hk y⟩

end Ranges

/-- The file size that ends with offset `n - 1` of target `k`, when `n` is not
a whole number of chunks. -/
theorem fileOffset_pred_of_mod_ne_zero (hs : 0 < s) {n : Nat} (ragged : n % s ≠ 0) :
    fileOffset s c k (n - 1) + 1 = n / s * (s * c) + k * s + n % s := by
  have split := Nat.div_add_mod' n s
  obtain ⟨div, mod⟩ := (Nat.div_mod_unique hs).2
    ⟨(by rw [Nat.mul_comm s (n / s)]; omega : n % s - 1 + s * (n / s) = n - 1), (by have := Nat.mod_lt n hs; omega)⟩
  rw [fileOffset_eq, div, mod]
  omega

/-- The file size that ends with offset `n - 1` of target `k`, when `n` is a
whole number of chunks. -/
theorem fileOffset_pred_of_mod_eq_zero (hs : 0 < s) {n : Nat} (positive : 0 < n) (whole : n % s = 0) :
    fileOffset s c k (n - 1) + 1 = (n / s - 1) * (s * c) + (k + 1) * s := by
  have split := Nat.div_add_mod' n s
  have rounds : 0 < n / s := Nat.div_pos (Nat.le_of_dvd positive (Nat.dvd_of_mod_eq_zero whole)) hs
  have last : (n / s - 1) * s + s = n / s * s := by
    rw [Nat.sub_mul, Nat.one_mul, Nat.sub_add_cancel (Nat.le_mul_of_pos_left s rounds)]
  obtain ⟨div, mod⟩ := (Nat.div_mod_unique hs).2
    ⟨(by rw [Nat.mul_comm s (n / s - 1)]; omega : s - 1 + s * (n / s - 1) = n - 1), Nat.sub_lt hs Nat.one_pos⟩
  rw [fileOffset_eq, div, mod, Nat.add_mul, Nat.one_mul]
  omega

end

/-! ## Counting a periodic pattern -/

section Pattern

variable {l p : Nat}

/-- Within one period the offsets are the numbers themselves. -/
theorem count_mod_lt_of_le {r : Nat} (within : r ≤ l) :
    Nat.count (fun x => x % l < p) r = min r p := by
  induction r with
  | zero => simp
  | succ r ih =>
    rw [Nat.count_succ, ih (by omega), Nat.mod_eq_of_lt (by omega)]
    split <;> omega

/-- A pattern shifted by whole periods is the same pattern. -/
theorem count_mod_lt_shift (q r : Nat) :
    Nat.count (fun k => (l * q + k) % l < p) r = Nat.count (fun x => x % l < p) r := by
  simp only [Nat.mul_add_mod]

/-- In the pattern that takes the first `p` offsets of every period `l`, the
numbers below `e` are `p` per whole period and the first `p` of the last. -/
theorem count_mod_lt (hl : 0 < l) (hp : p ≤ l) (e : Nat) :
    Nat.count (fun x => x % l < p) e = e / l * p + min (e % l) p := by
  have rounds : ∀ q, Nat.count (fun x => x % l < p) (l * q) = q * p := by
    intro q
    induction q with
    | zero => simp
    | succ q ih =>
      rw [Nat.mul_succ, Nat.count_add, ih, count_mod_lt_shift, count_mod_lt_of_le (le_refl l), Nat.succ_mul]
      omega
  conv_lhs => rw [← Nat.div_add_mod e l]
  rw [Nat.count_add, rounds, count_mod_lt_shift, count_mod_lt_of_le (Nat.le_of_lt (Nat.mod_lt e hl))]

/-- The numbers of `[s, s + n)` in the pattern, as a difference of counts. -/
theorem count_mod_lt_window (hl : 0 < l) (hp : p ≤ l) (s n : Nat) :
    Nat.count (fun k => (s + k) % l < p) n =
      (s + n) / l * p + min ((s + n) % l) p - (s / l * p + min (s % l) p) := by
  have whole := Nat.count_add (fun x => x % l < p) s n
  rw [count_mod_lt hl hp, count_mod_lt hl hp] at whole
  omega

end Pattern

end Raid0
