import Mathlib.Data.List.Basic

/-!
# Lists of spans with values

A list of records, each covering the span `[lo a, hi a]` of a line and
carrying a value, stands for a partial map from points to values: the value of
the first record that covers the point (`valueAt`).  When the records are in
order and apart, at most one covers a point, and the map is the union of the
records.  The lemmas say how the map of a list is built from the maps of its
parts, so that a loop that edits such a list can be followed point by point.
-/

namespace Spans

variable {α β : Type*} (lo hi : α → Nat) (val : α → β)

/-- Whether a record covers a point. -/
def covers (a : α) (x : Nat) : Bool := lo a ≤ x && x ≤ hi a

/-- The value the list gives a point: that of the first record covering it. -/
def valueAt (l : List α) (x : Nat) : Option β := (l.find? (covers lo hi · x)).map val

/-- Two records in list order: the first ends before the second starts, and
records of one value do not even adjoin. -/
def Apart (a b : α) : Prop := hi a < lo b ∧ (val a = val b → hi a + 1 < lo b)

variable {lo hi val}

@[simp] theorem covers_eq_true {a : α} {x : Nat} : covers lo hi a x = true ↔ lo a ≤ x ∧ x ≤ hi a := by
  simp [covers]

@[simp] theorem covers_eq_false {a : α} {x : Nat} : covers lo hi a x = false ↔ x < lo a ∨ hi a < x := by
  simp only [covers, Bool.and_eq_false_iff, decide_eq_false_iff_not]
  omega

/-- The span from the lower start to the higher end of two spans that meet or
touch covers what they cover. -/
theorem covers_hull {a b c : α} {x : Nat} (loEq : lo c = min (lo a) (lo b)) (hiEq : hi c = max (hi a) (hi b))
    (touch : lo a ≤ hi b + 1 ∧ lo b ≤ hi a + 1) :
    covers lo hi c x = (covers lo hi a x || covers lo hi b x) := by
  rw [Bool.eq_iff_iff]
  simp only [covers_eq_true, Bool.or_eq_true, loEq, hiEq]
  omega

@[simp] theorem valueAt_nil (x : Nat) : valueAt lo hi val [] x = none := rfl

theorem valueAt_cons (a : α) (l : List α) (x : Nat) :
    valueAt lo hi val (a :: l) x = if covers lo hi a x then some (val a) else valueAt lo hi val l x := by
  unfold valueAt
  cases covered : covers lo hi a x <;> simp [covered]

theorem valueAt_append (l₁ l₂ : List α) (x : Nat) :
    valueAt lo hi val (l₁ ++ l₂) x = (valueAt lo hi val l₁ x).or (valueAt lo hi val l₂ x) := by
  simp only [valueAt, List.find?_append, Option.map_or]

theorem valueAt_eq_none {l : List α} {x : Nat} (uncovered : ∀ a ∈ l, covers lo hi a x = false) :
    valueAt lo hi val l x = none := by
  simp only [valueAt, Option.map_eq_none_iff, List.find?_eq_none]
  intro a mem
  simp [uncovered a mem]

/-- A record that does not cover the point can be dropped from anywhere. -/
theorem valueAt_append_cons_of_not_covers (l₁ l₂ : List α) {a : α} {x : Nat}
    (uncovered : covers lo hi a x = false) :
    valueAt lo hi val (l₁ ++ a :: l₂) x = valueAt lo hi val (l₁ ++ l₂) x := by
  rw [valueAt_append, valueAt_append, valueAt_cons, uncovered, if_neg Bool.false_ne_true]

/-- A record can be swapped for one of the same value that covers the point
exactly when it does. -/
theorem valueAt_append_cons_congr (l₁ l₂ : List α) {a b : α} {x : Nat}
    (same : covers lo hi a x = covers lo hi b x) (sameVal : val a = val b) :
    valueAt lo hi val (l₁ ++ a :: l₂) x = valueAt lo hi val (l₁ ++ b :: l₂) x := by
  rw [valueAt_append, valueAt_append, valueAt_cons, valueAt_cons, same, sameVal]

/-- In a list whose earlier records all end before the point, the point takes
its value from the rest. -/
theorem valueAt_append_of_before {l₁ l₂ : List α} {x : Nat} (before : ∀ a ∈ l₁, hi a < x) :
    valueAt lo hi val (l₁ ++ l₂) x = valueAt lo hi val l₂ x := by
  rw [valueAt_append, valueAt_eq_none fun a mem => ?_, Option.none_or]
  have ends := before a mem
  simp only [covers, Bool.and_eq_false_iff, decide_eq_false_iff_not]
  omega

/-- A pairwise relation on a list with one member taken out and put back. -/
theorem pairwise_append_cons {R : α → α → Prop} {l₁ l₂ : List α} {a : α} :
    (l₁ ++ a :: l₂).Pairwise R ↔ (l₁ ++ l₂).Pairwise R ∧ (∀ b ∈ l₁, R b a) ∧ ∀ b ∈ l₂, R a b := by
  simp only [List.pairwise_append, List.pairwise_cons, List.mem_cons, forall_eq_or_imp]
  constructor
  · rintro ⟨left, ⟨head, right⟩, across⟩
    exact ⟨⟨left, right, fun b mem c inRight => (across b mem).2 c inRight⟩,
      fun b mem => (across b mem).1, head⟩
  · rintro ⟨⟨left, right, across⟩, before, head⟩
    exact ⟨left, ⟨head, right⟩, fun b mem => ⟨before b mem, across b mem⟩⟩

/-- Changing the last record of a list. -/
theorem modify_length_append_singleton (f : α → α) (a : α) :
    ∀ l : List α, (l ++ [a]).modify l.length f = l ++ [f a]
  | [] => rfl
  | b :: l => by
    rw [List.cons_append, List.length_cons, List.modify_succ_cons, modify_length_append_singleton f a l]
    rfl

/-- Records apart in turn are apart across one that is not empty. -/
theorem Apart.trans {a b c : α} (ab : Apart lo hi val a b) (bc : Apart lo hi val b c) (nonempty : lo b ≤ hi b) :
    Apart lo hi val a c :=
  ⟨by have := ab.1; have := bc.1; omega, fun _ => by have := ab.1; have := bc.1; omega⟩

/-- A record that ends no later stays apart from one that starts no earlier. -/
theorem Apart.mono {a b a' b' : α} (ab : Apart lo hi val a b) (hiLe : hi a' ≤ hi a) (loLe : lo b ≤ lo b')
    (sameA : val a' = val a) (sameB : val b' = val b) : Apart lo hi val a' b' :=
  ⟨by have := ab.1; omega, fun same => by
    have := ab.2 (by rw [← sameA, ← sameB, same])
    omega⟩

end Spans
