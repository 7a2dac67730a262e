import Mathlib.Data.Int.Basic
import Mathlib.Order.Basic

/-!
# Credit pools with a queue of waiters

Flow control in network stacks hands out credits: a sender takes one before
it goes on, and when the count goes below zero it queues up to wait.  When a
credit comes back and the count is still not above zero, the first waiter
gets it.  Before it touches the count the code asserts that the count is
negative exactly when someone waits.

The pool is balanced when exactly as many wait as the count is below zero.
Taking and giving back keep a pool balanced, and on a balanced pool the
assertion holds and a credit that comes back always finds its waiter.
-/

namespace Credits

variable {α : Type*}

/-- A credit count and the queue of those waiting for a credit, oldest
first. -/
structure Pool (α : Type*) where
  /-- Credits left; below zero by the number of waiters. -/
  credits : Int
  /-- The waiters. -/
  waiting : List α
  deriving DecidableEq, Repr

/-- The assertion made before the count changes: negative exactly when
someone waits. -/
def Pool.consistent (pool : Pool α) : Bool :=
  decide (pool.credits < 0) == !pool.waiting.isEmpty

/-- Take a credit for `a`; `true` when `a` has to wait for it. -/
def Pool.take (pool : Pool α) (a : α) : Option (Pool α × Bool) :=
  if pool.consistent then
    if pool.credits - 1 < 0 then some (⟨pool.credits - 1, pool.waiting ++ [a]⟩, true)
    else some (⟨pool.credits - 1, pool.waiting⟩, false)
  else none

/-- Give a credit back; the first waiter gets it when the count is still not
above zero.  Taking the first of no waiters is a failure. -/
def Pool.give (pool : Pool α) : Option (Pool α × Option α) :=
  if pool.consistent then
    if pool.credits + 1 ≤ 0 then
      match pool.waiting with
      | [] => none
      | first :: rest => some (⟨pool.credits + 1, rest⟩, some first)
    else some (⟨pool.credits + 1, pool.waiting⟩, none)
  else none

/-- Exactly as many wait as the count is below zero. -/
def Pool.Balanced (pool : Pool α) : Prop :=
  pool.waiting.length = (-pool.credits).toNat

theorem Pool.Balanced.consistent {pool : Pool α} (balanced : pool.Balanced) :
    pool.consistent = true := by
  unfold Pool.Balanced at balanced
  unfold Pool.consistent
  cases waiting : pool.waiting with
  | nil =>
    rw [waiting, List.length_nil] at balanced
    have noDebt : ¬ pool.credits < 0 := by omega
    simp [noDebt]
  | cons first rest =>
    rw [waiting, List.length_cons] at balanced
    have debt : pool.credits < 0 := by omega
    simp [debt]

/-- On a balanced pool, taking a credit does not fail, and it queues the
taker exactly when no credit is left. -/
theorem Pool.Balanced.take_eq {pool : Pool α} (balanced : pool.Balanced) (a : α) :
    pool.take a = some (⟨pool.credits - 1,
      if pool.credits - 1 < 0 then pool.waiting ++ [a] else pool.waiting⟩,
      decide (pool.credits - 1 < 0)) := by
  unfold Pool.take
  rw [if_pos balanced.consistent]
  by_cases none_left : pool.credits - 1 < 0 <;> simp [none_left]

theorem Pool.Balanced.take {pool pool' : Pool α} {a : α} {waits : Bool} (balanced : pool.Balanced)
    (done : pool.take a = some (pool', waits)) : pool'.Balanced := by
  rw [balanced.take_eq, Option.some.injEq, Prod.mk.injEq] at done
  obtain ⟨rfl, -⟩ := done
  unfold Pool.Balanced at balanced ⊢
  dsimp only
  split
  · rw [List.length_append, balanced, List.length_singleton]
    omega
  · rw [balanced]
    omega

/-- On a balanced pool, a credit that comes back does not fail: when the
count is still not above zero, there is a waiter to hand it to. -/
theorem Pool.Balanced.give_isSome {pool : Pool α} (balanced : pool.Balanced) :
    pool.give.isSome = true := by
  unfold Pool.give
  rw [if_pos balanced.consistent]
  unfold Pool.Balanced at balanced
  split
  · split
    · next empty =>
      rw [empty, List.length_nil] at balanced
      omega
    · rfl
  · rfl

theorem Pool.Balanced.give {pool pool' : Pool α} {next : Option α} (balanced : pool.Balanced)
    (done : pool.give = some (pool', next)) : pool'.Balanced := by
  unfold Pool.give at done
  rw [if_pos balanced.consistent] at done
  unfold Pool.Balanced at balanced
  split at done
  · split at done
    · cases done
    · next first rest waiting =>
      rw [Option.some.injEq, Prod.mk.injEq] at done
      obtain ⟨rfl, -⟩ := done
      rw [waiting, List.length_cons] at balanced
      show rest.length = (-(pool.credits + 1)).toNat
      omega
  · rw [Option.some.injEq, Prod.mk.injEq] at done
    obtain ⟨rfl, -⟩ := done
    show pool.waiting.length = (-(pool.credits + 1)).toNat
    omega

end Credits
