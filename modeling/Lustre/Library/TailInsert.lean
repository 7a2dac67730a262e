import Mathlib

/-!
# Linking into a sorted list from its tail

Kernel code keeps a linked list sorted by a key and links a new entry by
walking the list backwards (`list_for_each_prev`): it passes the entries
with a larger key, links the new entry after the first entry with a smaller
key, or at the head when there is none, and asserts that no entry has the
same key.  New entries usually carry the largest key, so the walk stops at
once.  This module models the walk and proves what it keeps: the list gains
exactly the new entry, and a list sorted by the key stays sorted.
-/

namespace TailInsert

variable {α κ : Type*} [LinearOrder κ]

/-- The walk over the list read from its tail; `none` when an entry has the
key of `a`. -/
def walk (key : α → κ) (a : α) : List α → Option (List α)
  | [] => some [a]
  | iter :: earlier =>
    if key a = key iter then none
    else if key a < key iter then (walk key a earlier).map (iter :: ·)
    else some (a :: iter :: earlier)

/-- Link `a` into `list`, kept from head to tail, by the walk from its tail. -/
def link (key : α → κ) (a : α) (list : List α) : Option (List α) :=
  (walk key a list.reverse).map List.reverse

/-- The walk adds `a` and keeps every entry. -/
theorem walk_perm {key : α → κ} {a : α} {fromTail walked : List α}
    (done : walk key a fromTail = some walked) : walked.Perm (a :: fromTail) := by
  induction fromTail generalizing walked with
  | nil =>
    simp only [walk, Option.some.injEq] at done
    rw [← done]
  | cons iter earlier ih =>
    unfold walk at done
    split_ifs at done with same later
    · -- passed: `a` goes in further on
      obtain ⟨rest, restDone, rfl⟩ := Option.map_eq_some_iff.mp done
      exact ((ih restDone).cons iter).trans (List.Perm.swap a iter earlier)
    · rw [← Option.some.inj done]

/-- Read from its tail, a list sorted by the key stays sorted. -/
theorem walk_sorted {key : α → κ} {a : α} {fromTail walked : List α}
    (sorted : fromTail.Pairwise fun x y => key y < key x)
    (done : walk key a fromTail = some walked) :
    walked.Pairwise fun x y => key y < key x := by
  induction fromTail generalizing walked with
  | nil =>
    simp only [walk, Option.some.injEq] at done
    rw [← done]
    exact List.pairwise_singleton _ _
  | cons iter earlier ih =>
    obtain ⟨iterAbove, earlierSorted⟩ := List.pairwise_cons.mp sorted
    unfold walk at done
    split_ifs at done with same later
    · -- `iter` stays in front of everything the walk goes on to
      obtain ⟨rest, restDone, rfl⟩ := Option.map_eq_some_iff.mp done
      refine List.pairwise_cons.mpr ⟨fun x mem => ?_, ih earlierSorted restDone⟩
      rcases List.mem_cons.mp ((walk_perm restDone).mem_iff.mp mem) with rfl | inEarlier
      · exact later
      · exact iterAbove x inEarlier
    · -- `a` stops in front of `iter`, whose key is smaller
      have below : key iter < key a := lt_of_le_of_ne (not_lt.mp later) (Ne.symm same)
      rw [← Option.some.inj done]
      refine List.pairwise_cons.mpr ⟨fun x mem => ?_, sorted⟩
      rcases List.mem_cons.mp mem with rfl | inEarlier
      · exact below
      · exact (iterAbove x inEarlier).trans below

theorem link_perm {key : α → κ} {a : α} {list linked : List α}
    (done : link key a list = some linked) : linked.Perm (a :: list) := by
  obtain ⟨walked, walkDone, rfl⟩ := Option.map_eq_some_iff.mp done
  exact (List.reverse_perm walked).trans (((walk_perm walkDone).trans
    ((List.reverse_perm list).cons a)))

/-- A list sorted by the key from head to tail stays sorted. -/
theorem link_sorted {key : α → κ} {a : α} {list linked : List α}
    (sorted : list.Pairwise fun x y => key x < key y) (done : link key a list = some linked) :
    linked.Pairwise fun x y => key x < key y := by
  obtain ⟨walked, walkDone, rfl⟩ := Option.map_eq_some_iff.mp done
  exact List.pairwise_reverse.mpr (walk_sorted (List.pairwise_reverse.mpr sorted) walkDone)

end TailInsert
