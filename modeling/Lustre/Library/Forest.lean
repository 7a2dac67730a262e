import Mathlib.Logic.Relation

/-!
# Parent links

A file system namespace, a process tree or any other hierarchy kept as
parent links is a relation `up` in which every element has at most one
parent.  Its ancestors are the transitive closure.  This module proves the
two facts a rename needs: the proper ancestors of an element are its parent
and the parent's ancestors, and moving an element under a new parent that
does not lie below it keeps every element reaching the root.
-/

namespace Forest

open Relation

variable {α : Type*}

/-- Every element has at most one parent. -/
def Functional (up : α → α → Prop) : Prop := ∀ a b c, up a b → up a c → b = c

/-- The proper ancestors of an element are its parent and the parent's
proper ancestors. -/
theorem transGen_iff_of_functional {up : α → α → Prop} (functional : Functional up)
    {a p x : α} (parent : up a p) : TransGen up a x ↔ x = p ∨ TransGen up p x := by
  constructor
  · intro path
    obtain ⟨b, first, rest⟩ := TransGen.head'_iff.mp path
    rw [functional a b p first parent] at rest
    exact reflTransGen_iff_eq_or_transGen.mp rest
  · rintro (rfl | further)
    · exact TransGen.single parent
    · exact TransGen.head parent further

/-- Where every element reaches a root without a parent, no element is its
own proper ancestor. -/
theorem not_transGen_self {up : α → α → Prop} (functional : Functional up) {a root : α}
    (reaches : ReflTransGen up a root) (rootless : ∀ b, ¬ up root b) : ¬ TransGen up a a := by
  induction reaches using ReflTransGen.head_induction_on with
  | refl =>
    intro cycle
    obtain ⟨b, first, -⟩ := TransGen.head'_iff.mp cycle
    exact rootless b first
  | head step rest ih =>
    rename_i c d
    intro cycle
    -- going round from `c` means going round from its parent `d`
    obtain ⟨b, first, back⟩ := TransGen.head'_iff.mp cycle
    rw [functional c b d first step] at back
    exact ih (TransGen.tail' back step)

/-- The links after `x` is moved under `t`; every other element keeps its
parent. -/
def rehang (up : α → α → Prop) (x t : α) : α → α → Prop :=
  fun a b => (a ≠ x ∧ up a b) ∨ (a = x ∧ b = t)

/-- A path up to `x` is still there after `x` moves. -/
theorem reflTransGen_rehang_of_reaches {up : α → α → Prop} {x t a : α}
    (path : ReflTransGen up a x) : ReflTransGen (rehang up x t) a x := by
  induction path using ReflTransGen.head_induction_on with
  | refl => exact ReflTransGen.refl
  | head step rest ih =>
    rename_i c d
    -- the path may reach `x` early; stop there
    by_cases atX : c = x
    · rw [atX]
    · exact ReflTransGen.head (Or.inl ⟨atX, step⟩) ih

/-- A path that never meets `x` is untouched by moving `x`. -/
theorem reflTransGen_rehang_of_avoids {up : α → α → Prop} {x t a root : α}
    (path : ReflTransGen up a root) (avoids : ¬ ReflTransGen up a x) :
    ReflTransGen (rehang up x t) a root := by
  revert avoids
  induction path using ReflTransGen.head_induction_on with
  | refl => intro _; exact ReflTransGen.refl
  | head step rest ih =>
    rename_i c d
    intro avoids
    have notX : c ≠ x := fun same => avoids (same ▸ ReflTransGen.refl)
    have nextAvoids : ¬ ReflTransGen up d x :=
      fun reaches => avoids (ReflTransGen.head step reaches)
    exact ReflTransGen.head (Or.inl ⟨notX, step⟩) (ih nextAvoids)

/-- Moving `x` under `t`, where `t` does not lie below `x`, keeps an element
that reached the root reaching it. -/
theorem reaches_rehang {up : α → α → Prop} {x t a root : α}
    (reaches : ReflTransGen up a root) (tReaches : ReflTransGen up t root)
    (outside : ¬ ReflTransGen up t x) : ReflTransGen (rehang up x t) a root := by
  by_cases below : ReflTransGen up a x
  · -- up to `x`, over the new link to `t`, and on to the root
    exact (reflTransGen_rehang_of_reaches below).trans
      (ReflTransGen.head (Or.inr ⟨rfl, rfl⟩) (reflTransGen_rehang_of_avoids tReaches outside))
  · exact reflTransGen_rehang_of_avoids reaches below

end Forest
