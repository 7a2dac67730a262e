import Mathlib

/-!
# Loops with fuel

A `for (;;)` loop whose body either leaves with a result or goes round
again with a new state is modelled by `Loop.run body fuel state`: at most
`fuel` rounds, and `none` when the rounds run out before the body leaves.
Two rules say what such a loop does.  If the body leaves with `b` after some
rounds, then every large enough fuel gives `b` (`Ends`): the loop returns, and
within a known number of rounds.  If the body keeps the state in a set from
which it always goes round again, no fuel is ever enough: the loop runs
forever.
-/

namespace Loop

variable {σ β : Type*}

/-- Run the body for at most `fuel` rounds from `state`. -/
def run (body : σ → β ⊕ σ) : Nat → σ → Option β
  | 0, _ => none
  | fuel + 1, state =>
    match body state with
    | .inl result => some result
    | .inr next => run body fuel next

@[simp] theorem run_zero (body : σ → β ⊕ σ) (state : σ) : run body 0 state = none := rfl

theorem run_succ (body : σ → β ⊕ σ) (fuel : Nat) (state : σ) :
    run body (fuel + 1) state =
      match body state with
      | .inl result => some result
      | .inr next => run body fuel next := rfl

theorem run_succ_of_leave {body : σ → β ⊕ σ} {state : σ} {result : β}
    (leaves : body state = .inl result) (fuel : Nat) :
    run body (fuel + 1) state = some result := by
  rw [run_succ, leaves]

theorem run_succ_of_next {body : σ → β ⊕ σ} {state next : σ}
    (goesOn : body state = .inr next) (fuel : Nat) :
    run body (fuel + 1) state = run body fuel next := by
  rw [run_succ, goesOn]

/-- A loop that leaves within some fuel leaves the same way with more. -/
theorem run_add_of_eq_some {body : σ → β ⊕ σ} {fuel : Nat} {state : σ} {result : β}
    (ran : run body fuel state = some result) (extra : Nat) :
    run body (fuel + extra) state = some result := by
  induction fuel generalizing state with
  | zero => cases ran
  | succ fuel ih =>
    rw [Nat.add_right_comm]
    cases goes : body state with
    | inl left =>
      rw [run_succ_of_leave goes] at ran ⊢
      exact ran
    | inr next =>
      rw [run_succ_of_next goes] at ran ⊢
      exact ih ran

/-- Two runs of a loop that both leave, with whatever fuel, leave the same way. -/
theorem run_unique {body : σ → β ⊕ σ} {fuel fuel' : Nat} {state : σ} {result result' : β}
    (ran : run body fuel state = some result) (ran' : run body fuel' state = some result') :
    result = result' := by
  have long := run_add_of_eq_some ran fuel'
  have long' := run_add_of_eq_some ran' fuel
  rw [Nat.add_comm] at long'
  exact Option.some.inj (long.symm.trans long')

/-- A computation with fuel gives `result` for every large enough fuel. -/
def Ends (f : Nat → Option β) (result : β) : Prop :=
  ∃ bound, ∀ fuel, bound ≤ fuel → f fuel = some result

theorem Ends.unique {f : Nat → Option β} {result result' : β}
    (ends : Ends f result) (ends' : Ends f result') : result = result' := by
  obtain ⟨bound, after⟩ := ends
  obtain ⟨bound', after'⟩ := ends'
  have same := (after (bound + bound') (Nat.le_add_right _ _)).symm.trans
    (after' (bound + bound') (Nat.le_add_left _ _))
  exact Option.some.inj same

/-- A computation that ends with `a` where `p` holds and with some other
`b` where it does not ends with `a` exactly when `p` holds. -/
theorem ends_iff_of_cases {f : Nat → Option β} {a b : β} {p : Prop} (different : a ≠ b)
    (cases : (Ends f a ∧ p) ∨ (Ends f b ∧ ¬ p)) : (Ends f a ↔ p) ∧ (Ends f b ↔ ¬ p) := by
  rcases cases with ⟨endsA, holds⟩ | ⟨endsB, fails⟩
  · exact ⟨iff_of_true endsA holds,
      iff_of_false (fun endsB => different (endsA.unique endsB)) (not_not_intro holds)⟩
  · exact ⟨iff_of_false (fun endsA => different (endsA.unique endsB)) fails, iff_of_true endsB fails⟩

/-- A computation that does not use its fuel ends with its value. -/
theorem ends_const (result : β) : Ends (fun _ => some result) result :=
  ⟨0, fun _ _ => rfl⟩

/-- Mapping the result of a computation that ends maps its result. -/
theorem Ends.map {γ : Type*} {f : Nat → Option β} {result : β} (ends : Ends f result)
    (g : β → γ) : Ends (fun fuel => (f fuel).map g) (g result) := by
  obtain ⟨bound, after⟩ := ends
  exact ⟨bound, fun fuel enough => by simp only [after fuel enough, Option.map_some]⟩

/-- A body that leaves at once ends the loop. -/
theorem ends_of_leave {body : σ → β ⊕ σ} {state : σ} {result : β}
    (leaves : body state = .inl result) : Ends (run body · state) result := by
  refine ⟨1, fun fuel enough => ?_⟩
  obtain ⟨fuel, rfl⟩ : ∃ rest, fuel = rest + 1 := ⟨fuel - 1, by omega⟩
  exact run_succ_of_leave leaves fuel

/-- One more round before a loop that ends still ends, with the same result. -/
theorem ends_of_next {body : σ → β ⊕ σ} {state next : σ} {result : β}
    (goesOn : body state = .inr next) (ends : Ends (run body · next) result) :
    Ends (run body · state) result := by
  obtain ⟨bound, after⟩ := ends
  refine ⟨bound + 1, fun fuel enough => ?_⟩
  obtain ⟨fuel, rfl⟩ : ∃ rest, fuel = rest + 1 := ⟨fuel - 1, by omega⟩
  show run body (fuel + 1) state = some result
  rw [run_succ_of_next goesOn]
  exact after fuel (by omega)

/-- From a set of states where the body always goes round again and stays in
the set, the loop never leaves. -/
theorem run_eq_none_of_closed {body : σ → β ⊕ σ} (inside : σ → Prop)
    (closed : ∀ state, inside state → ∃ next, body state = .inr next ∧ inside next) :
    ∀ fuel state, inside state → run body fuel state = none := by
  intro fuel
  induction fuel with
  | zero => intro state _; rfl
  | succ fuel ih =>
    intro state isInside
    obtain ⟨next, goesOn, nextInside⟩ := closed state isInside
    rw [run_succ_of_next goesOn]
    exact ih next nextInside

/-- A loop whose body, from every state of an invariant of some rank, either
leaves with a result that satisfies `good` or goes round again to a state of the
invariant of a smaller rank, ends, and with such a result. -/
theorem ends_of_ranked {body : σ → β ⊕ σ} (inside : Nat → σ → Prop) (good : β → Prop)
    (step : ∀ rank state, inside rank state →
      (∃ result, body state = .inl result ∧ good result) ∨
        ∃ lower next, lower < rank ∧ body state = .inr next ∧ inside lower next) :
    ∀ rank state, inside rank state → ∃ result, good result ∧ Ends (run body · state) result := by
  intro rank
  -- strong induction on the rank of the state the loop starts from
  induction rank using Nat.strongRecOn with
  | _ rank ih =>
    intro state isInside
    rcases step rank state isInside with ⟨result, leaves, isGood⟩ |
      ⟨lower, next, smaller, goesOn, nextInside⟩
    · exact ⟨result, isGood, ends_of_leave leaves⟩
    · obtain ⟨result, isGood, ends⟩ := ih lower smaller next nextInside
      exact ⟨result, isGood, ends_of_next goesOn ends⟩

/-- The same loop leaves within one round more than the rank it starts from. -/
theorem run_of_ranked {body : σ → β ⊕ σ} (inside : Nat → σ → Prop) (good : β → Prop)
    (step : ∀ rank state, inside rank state →
      (∃ result, body state = .inl result ∧ good result) ∨
        ∃ lower next, lower < rank ∧ body state = .inr next ∧ inside lower next) :
    ∀ rank state, inside rank state → ∀ fuel, rank < fuel →
      ∃ result, good result ∧ run body fuel state = some result := by
  intro rank
  induction rank using Nat.strongRecOn with
  | _ rank ih =>
    intro state isInside fuel enough
    obtain ⟨fuel, rfl⟩ : ∃ rest, fuel = rest + 1 := ⟨fuel - 1, by omega⟩
    rcases step rank state isInside with ⟨result, leaves, isGood⟩ |
      ⟨lower, next, smaller, goesOn, nextInside⟩
    · exact ⟨result, isGood, run_succ_of_leave leaves fuel⟩
    · rw [run_succ_of_next goesOn]
      exact ih lower smaller next nextInside fuel (by omega)

end Loop
