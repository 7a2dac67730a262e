import Mathlib

/-!
# Runs of a deterministic transition system

A component is modelled by a step function `step : σ → ε → σ`: the state
after one event.  Events carry every choice the environment makes (which
request arrives, whether a disk write fails), so that one step is a plain
function and a run is a fold.  An admissibility predicate restricts which
events the environment may offer in a given state (a reply may only carry a
commit number the server has already issued, say).

This module proves the two rules every model here uses: an inductive
invariant holds on every reachable state, and a concrete checked run is a
witness of reachability.
-/

namespace Machine

variable {σ ε : Type*}

/-- The state reached from `state` by the events of a list, in order. -/
def run (step : σ → ε → σ) (state : σ) (events : List ε) : σ :=
  events.foldl step state

@[simp] theorem run_nil (step : σ → ε → σ) (state : σ) :
    run step state [] = state := rfl

@[simp] theorem run_cons (step : σ → ε → σ) (state : σ)
    (event : ε) (events : List ε) :
    run step state (event :: events) = run step (step state event) events := rfl

/-- The states reachable from `start` through admissible events. -/
inductive Reachable (step : σ → ε → σ) (allowed : σ → ε → Prop)
    (start : σ) : σ → Prop
  | start : Reachable step allowed start start
  | step {state : σ} (event : ε) :
      Reachable step allowed start state →
      allowed state event →
      Reachable step allowed start (step state event)

/-- Every event is admissible. -/
def anyEvent : σ → ε → Prop := fun _ _ => True

/-- An invariant that holds at the start and is kept by every admissible
step holds on every reachable state. -/
theorem Reachable.invariant
    {step : σ → ε → σ} {allowed : σ → ε → Prop} {start state : σ}
    (invariant : σ → Prop)
    (holdsAtStart : invariant start)
    (preserved : ∀ state event,
      invariant state → allowed state event → invariant (step state event))
    (reachable : Reachable step allowed start state) :
    invariant state := by
  induction reachable with
  | start => exact holdsAtStart
  | step event _ isAllowed holdsBefore =>
      exact preserved _ event holdsBefore isAllowed

/-- When every event is admissible, a run from a reachable state ends in a
reachable state. -/
theorem Reachable.run {step : σ → ε → σ} {start state : σ}
    (reachable : Reachable step anyEvent start state) (events : List ε) :
    Reachable step anyEvent start (run step state events) := by
  induction events generalizing state with
  | nil => exact reachable
  | cons event events ih => exact ih (reachable.step event trivial)

/-- A run whose every event is admissible, or `none` at the first event the
environment may not offer. -/
def runChecked (step : σ → ε → σ) (allowed : σ → ε → Bool) :
    σ → List ε → Option σ
  | state, [] => some state
  | state, event :: events =>
      if allowed state event then runChecked step allowed (step state event) events
      else none

/-- A checked run from a reachable state ends in a reachable state. -/
theorem Reachable.of_runChecked
    {step : σ → ε → σ} {allowed : σ → ε → Bool} {start : σ} :
    ∀ {state final : σ} {events : List ε},
      Reachable step (fun state event => allowed state event = true) start state →
      runChecked step allowed state events = some final →
      Reachable step (fun state event => allowed state event = true) start final
  | state, final, [], reachable, ran => by
      simp only [runChecked, Option.some.injEq] at ran
      exact ran ▸ reachable
  | state, final, event :: events, reachable, ran => by
      simp only [runChecked] at ran
      split at ran
      · next isAllowed =>
          exact Reachable.of_runChecked (reachable.step event isAllowed) ran
      · cases ran

/-- A state that a checked run from the start reaches and that satisfies a
decidable property witnesses a reachable state with that property. -/
theorem exists_reachable_of_runChecked
    {step : σ → ε → σ} {allowed : σ → ε → Bool} {start : σ}
    {events : List ε} {property : σ → Bool}
    (ran : (runChecked step allowed start events).map property = some true) :
    ∃ final, Reachable step (fun state event => allowed state event = true)
      start final ∧ property final = true := by
  cases finalState : runChecked step allowed start events with
  | none => simp [finalState] at ran
  | some final =>
      simp only [finalState, Option.map_some, Option.some.injEq] at ran
      exact ⟨final, Reachable.start.of_runChecked finalState, ran⟩

end Machine
