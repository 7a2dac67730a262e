import Mathlib.Order.MinMax
import Mathlib.Order.BoundedOrder.Basic

/-!
# The largest value logged at the times a predicate selects

Estimators that remember "the worst value of the last few minutes" keep a
few counters in place of the log of what they measured.  Their
specification is the log itself: the largest value measured at a time the
window selects, and `⊥` when there is none.  This module defines that
maximum over a chronological log of timed values and proves the rules an
estimator's proof uses: a measurement appended to the log, a value the
window selects, a window that selects nothing, two windows that agree on the
logged times, and a window that is the union of two.
-/

namespace WindowMax

variable {τ β : Type*} [LinearOrder β] [OrderBot β]

/-- The largest value in `log` whose time `window` selects, `⊥` when there
is none. -/
def maxWhere (window : τ → Prop) [DecidablePred window] : List (τ × β) → β
  | [] => ⊥
  | (t, v) :: rest => if window t then max v (maxWhere window rest) else maxWhere window rest

variable (window : τ → Prop) [DecidablePred window]

@[simp] theorem maxWhere_nil : maxWhere window ([] : List (τ × β)) = ⊥ := rfl

theorem maxWhere_cons (t : τ) (v : β) (rest : List (τ × β)) :
    maxWhere window ((t, v) :: rest) =
      if window t then max v (maxWhere window rest) else maxWhere window rest := rfl

/-- A measurement appended to the log counts exactly when the window
selects its time. -/
theorem maxWhere_append_singleton (log : List (τ × β)) (t : τ) (v : β) :
    maxWhere window (log ++ [(t, v)]) =
      if window t then max (maxWhere window log) v else maxWhere window log := by
  induction log with
  | nil =>
    by_cases selected : window t
    · simp [maxWhere_cons, selected]
    · simp [maxWhere_cons, selected]
  | cons head rest ih =>
    obtain ⟨t', v'⟩ := head
    by_cases selected : window t
    · by_cases selected' : window t'
      · simp only [List.cons_append, maxWhere_cons, selected', if_true, ih, selected]
        rw [max_assoc]
      · simp only [List.cons_append, maxWhere_cons, selected', if_false, ih]
    · by_cases selected' : window t'
      · simp [maxWhere_cons, selected', ih, selected]
      · simp [maxWhere_cons, selected', ih, selected]

/-- A value logged at a time the window selects is at most the maximum. -/
theorem le_maxWhere {log : List (τ × β)} {m : τ × β} (logged : m ∈ log)
    (selected : window m.1) :
    m.2 ≤ maxWhere window log := by
  induction log with
  | nil => cases logged
  | cons head rest ih =>
    obtain ⟨t, v⟩ := head
    rcases List.mem_cons.mp logged with here | later
    · subst here
      simp [maxWhere_cons, selected]
    · by_cases selected' : window t
      · simp only [maxWhere_cons, selected', if_true]
        exact le_max_of_le_right (ih later)
      · simp only [maxWhere_cons, selected', if_false]
        exact ih later

/-- A window that selects no logged time gives `⊥`. -/
theorem maxWhere_eq_bot {log : List (τ × β)} (none : ∀ m ∈ log, ¬ window m.1) :
    maxWhere window log = ⊥ := by
  induction log with
  | nil => rfl
  | cons head rest ih =>
    obtain ⟨t, v⟩ := head
    have skipped : ¬ window t := none (t, v) List.mem_cons_self
    simp only [maxWhere_cons, skipped, if_false]
    exact ih fun m mem => none m (List.mem_cons_of_mem _ mem)

/-- Two windows that select the same logged times give the same maximum. -/
theorem maxWhere_congr {other : τ → Prop} [DecidablePred other] {log : List (τ × β)}
    (same : ∀ m ∈ log, window m.1 ↔ other m.1) :
    maxWhere window log = maxWhere other log := by
  induction log with
  | nil => rfl
  | cons head rest ih =>
    have rest_same := ih fun m mem => same m (List.mem_cons_of_mem _ mem)
    obtain ⟨t, v⟩ := head
    by_cases selected : window t
    · have selected' : other t := (same (t, v) List.mem_cons_self).mp selected
      simp [maxWhere_cons, selected, selected', rest_same]
    · have selected' : ¬ other t :=
        fun hit => selected ((same (t, v) List.mem_cons_self).mpr hit)
      simp [maxWhere_cons, selected, selected', rest_same]

/-- The window that selects what either of two windows selects gives the
larger of their maxima. -/
theorem maxWhere_or (other : τ → Prop) [DecidablePred other] (log : List (τ × β)) :
    maxWhere (fun t => window t ∨ other t) log =
      max (maxWhere window log) (maxWhere other log) := by
  induction log with
  | nil => simp
  | cons head rest ih =>
    obtain ⟨t, v⟩ := head
    by_cases selected : window t <;> by_cases selected' : other t
    · simp only [maxWhere_cons, selected, selected', or_self, if_true, ih]
      rw [max_max_max_comm, max_self]
    · simp only [maxWhere_cons, selected, selected', or_false, if_true, if_false, ih]
      rw [max_assoc]
    · simp only [maxWhere_cons, selected, selected', false_or, if_true, if_false, ih]
      rw [max_left_comm]
    · simp only [maxWhere_cons, selected, selected', or_self, if_false, ih]

end WindowMax
