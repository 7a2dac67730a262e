import Mathlib

/-!
# Classes with one leader, and folds in which one step acts

Lists of records often stand for a set cut into classes by a key, where one
member of each class (its leader) is found by a search and carries the size
of its class.  Adding up the sizes at the leaders a search meets then counts
every member of the classes it meets (`sum_classSize_leaders`).

A fold in `Option` over a list of visitors, each of which maps over the whole
list of records, is the same as one map that folds the visitors over each
record (`foldlM_mapM`); a record that only one visitor changes ends as that
visitor leaves it (`foldlM_eq_some_of_one_acts`).

A list keeps its classes together (`Contiguous`) when the members of each
class stand as one block; another block of the class can take its place
(`Contiguous.replace`) without the other classes seeing it
(`filter_block_other`).
-/

namespace Groups

variable {α β γ κ : Type*}

section Leaders

variable [DecidableEq κ] (key : α → κ) (leader : α → Bool)

/-- The number of members of the class of `a`. -/
def classSize (l : List α) (a : α) : Nat := l.countP fun b => key b = key a

theorem classSize_eq_count (l : List α) (a : α) :
    classSize key l a = (l.map key).count (key a) := by
  rw [classSize, List.count, List.countP_map]
  rfl

/-- The keys of the leaders that satisfy `p` are the distinct keys that do. -/
theorem leaderKeys_perm {l : List α} (oneLeader : ((l.filter leader).map key).Nodup)
    (led : ∀ a ∈ l, ∃ b ∈ l, leader b = true ∧ key b = key a) (p : κ → Bool) :
    ((l.filter fun a => leader a && p (key a)).map key).Perm ((l.map key).dedup.filter p) := by
  have sublist : ((l.filter fun a => leader a && p (key a)).map key).Sublist
      ((l.filter leader).map key) := by
    apply List.Sublist.map
    apply List.monotone_filter_right
    intro a both
    simp only [Bool.and_eq_true] at both
    exact both.1
  apply (List.perm_ext_iff_of_nodup (sublist.nodup oneLeader)
    (List.Nodup.filter _ (List.nodup_dedup _))).2
  intro k
  simp only [List.mem_map, List.mem_filter, List.mem_dedup, Bool.and_eq_true]
  constructor
  · rintro ⟨a, ⟨mem, -, holds⟩, rfl⟩
    exact ⟨⟨a, mem, rfl⟩, holds⟩
  · rintro ⟨⟨a, mem, rfl⟩, holds⟩
    obtain ⟨b, bMem, isLeader, sameKey⟩ := led a mem
    exact ⟨b, ⟨bMem, isLeader, sameKey ▸ holds⟩, sameKey⟩

/-- Adding the class sizes at the leaders whose key satisfies `p` counts the
members whose key satisfies `p`, when every class has exactly one leader. -/
theorem sum_classSize_leaders {l : List α} (oneLeader : ((l.filter leader).map key).Nodup)
    (led : ∀ a ∈ l, ∃ b ∈ l, leader b = true ∧ key b = key a) (p : κ → Bool) :
    ((l.filter fun a => leader a && p (key a)).map (classSize key l)).sum =
      l.countP fun b => p (key b) := by
  calc ((l.filter fun a => leader a && p (key a)).map (classSize key l)).sum
      = (((l.filter fun a => leader a && p (key a)).map key).map
          fun k => (l.map key).count k).sum := by
        rw [List.map_map]
        exact congrArg List.sum (List.map_congr_left fun a _ => classSize_eq_count key l a)
    _ = (((l.map key).dedup.filter p).map fun k => (l.map key).count k).sum :=
        ((leaderKeys_perm key leader oneLeader led p).map _).sum_eq
    _ = l.countP fun b => p (key b) := by
        rw [List.sum_map_count_dedup_filter_eq_countP, List.countP_map]
        rfl

/-- Changes that keep every key keep the class sizes. -/
theorem classSize_map {F : α → α} (keeps : ∀ a, key (F a) = key a) (l : List α) (a : α) :
    classSize key (l.map F) (F a) = classSize key l a := by
  simp only [classSize, List.countP_map, Function.comp_def, keeps]

/-- With one member per key, counting over a list is counting over the others
than `a`, and `a` itself. -/
theorem countP_eq_countP_filter_key_ne_add {a : α} (p : α → Bool) :
    ∀ {l : List α}, (l.map key).Nodup → a ∈ l →
      l.countP p = (l.filter fun b => key b ≠ key a).countP p + if p a then 1 else 0
  | b :: l, unique, mem => by
    rw [List.map_cons] at unique
    obtain ⟨fresh, unique⟩ := List.nodup_cons.1 unique
    by_cases isA : b = a
    · subst isA
      -- the others all have other keys than `b`, so the filter keeps them
      have kept : (l.filter fun c => key c ≠ key b) = l := by
        apply List.filter_eq_self.2
        intro c mem
        have keyIn : key c ∈ l.map key := List.mem_map_of_mem mem
        simpa using fun same : key c = key b => fresh (same ▸ keyIn)
      simp only [List.filter_cons, ne_eq, not_true_eq_false, decide_false, Bool.false_eq_true,
        if_false, kept, List.countP_cons]
    · have inRest : a ∈ l := (List.mem_cons.1 mem).resolve_left (Ne.symm isA)
      have keyIn : key a ∈ l.map key := List.mem_map_of_mem inRest
      have otherKey : key b ≠ key a := fun same => fresh (same ▸ keyIn)
      rw [List.countP_cons, countP_eq_countP_filter_key_ne_add p unique inRest,
        List.filter_cons_of_pos (by simpa using otherKey), List.countP_cons]
      omega

end Leaders

section Fold

/-- Mapping in `Option` twice is mapping once with both steps. -/
theorem mapM_bind_mapM (g : α → Option β) (h : β → Option γ) (as : List α) :
    (as.mapM g).bind (fun bs => bs.mapM h) = as.mapM fun a => (g a).bind h := by
  induction as with
  | nil => rfl
  | cons a as ih =>
    rw [List.mapM_cons, List.mapM_cons, ← ih]
    -- each of the two maps may fail at the head or in the rest
    cases g a with
    | none => rfl
    | some b =>
      cases rest : as.mapM g with
      | none => cases hb : h b <;> simp [hb]
      | some bs => cases hb : h b <;> cases bs.mapM h <;> simp [hb]

/-- A map in `Option` whose every step succeeds. -/
theorem mapM_eq_some_map {g : α → Option γ} {h : α → γ} :
    ∀ {as : List α}, (∀ a ∈ as, g a = some (h a)) → as.mapM g = some (as.map h)
  | [], _ => rfl
  | a :: as, each => by
    rw [List.mapM_cons, each a List.mem_cons_self,
      mapM_eq_some_map fun a' mem => each a' (List.mem_cons_of_mem a mem)]
    rfl

variable {f : β → α → Option α}

/-- Visitors that each map over every record fold to one map over the records,
each folding the visitors. -/
theorem foldlM_mapM (ns : List β) (as : List α) :
    ns.foldlM (fun as n => as.mapM (f n)) as = as.mapM fun a => ns.foldlM (fun a n => f n a) a := by
  induction ns generalizing as with
  | nil =>
    have unchanged : as.mapM (fun a => ([] : List β).foldlM (fun a n => f n a) a) = some (as.map id) :=
      mapM_eq_some_map fun _ _ => rfl
    rw [unchanged, List.map_id]
    rfl
  | cons n ns ih =>
    simp only [List.foldlM_cons, Option.bind_eq_bind]
    simp only [ih]
    exact mapM_bind_mapM _ _ as

/-- A fold whose every step leaves the value alone returns it. -/
theorem foldlM_eq_some_of_fixed {a : α} :
    ∀ {ns : List β}, (∀ n ∈ ns, f n a = some a) → ns.foldlM (fun a n => f n a) a = some a
  | [], _ => rfl
  | n :: ns, fixed => by
    simp only [List.foldlM_cons, fixed n List.mem_cons_self, Option.bind_eq_bind, Option.bind_some]
    exact foldlM_eq_some_of_fixed fun n' mem => fixed n' (List.mem_cons_of_mem n mem)

/-- A fold in which only the step at `n₀`, met once, changes the value, from
`a` to `b`, ends at `b`. -/
theorem foldlM_eq_some_of_one_acts {a b : α} {n₀ : β} (acts : f n₀ a = some b) :
    ∀ {ns : List β}, ns.Nodup → n₀ ∈ ns → (∀ n ∈ ns, n ≠ n₀ → f n a = some a) →
      (∀ n ∈ ns, n ≠ n₀ → f n b = some b) → ns.foldlM (fun a n => f n a) a = some b
  | n :: ns, nodup, mem, fixedBefore, fixedAfter => by
    obtain ⟨fresh, nodup⟩ := List.nodup_cons.1 nodup
    simp only [List.foldlM_cons, Option.bind_eq_bind]
    by_cases atFirst : n = n₀
    · subst atFirst
      rw [acts, Option.bind_some]
      exact foldlM_eq_some_of_fixed fun n' mem' =>
        fixedAfter n' (List.mem_cons_of_mem n mem') (ne_of_mem_of_not_mem mem' fresh)
    · rw [fixedBefore n List.mem_cons_self atFirst, Option.bind_some]
      exact foldlM_eq_some_of_one_acts acts nodup
        ((List.mem_cons.1 mem).resolve_left (Ne.symm atFirst))
        (fun n' mem' => fixedBefore n' (List.mem_cons_of_mem n mem'))
        (fun n' mem' => fixedAfter n' (List.mem_cons_of_mem n mem'))

end Fold

section Contiguous

variable (key : α → κ)

/-- The members of each class stand together: after a member, its class
either does not come again or goes on at once. -/
def Contiguous : List α → Prop
  | [] => True
  | a :: l => Contiguous l ∧ ((∀ b ∈ l, key b ≠ key a) ∨ l.head?.map key = some (key a))

variable {key}

theorem Contiguous.of_append : ∀ {l₁ l₂ : List α}, Contiguous key (l₁ ++ l₂) → Contiguous key l₂
  | [], _, contiguous => contiguous
  | _ :: _, _, contiguous => Contiguous.of_append contiguous.1

/-- In a list whose classes stand together, nothing of the class of the head
comes after the head's block. -/
theorem Contiguous.dropWhile_key_ne [DecidableEq κ] {k : κ} :
    ∀ {l : List α}, Contiguous key l → l.head?.map key = some k →
      ∀ b ∈ l.dropWhile (fun b => decide (key b = k)), key b ≠ k
  | a :: l, contiguous, head => by
    simp only [List.head?_cons, Option.map_some, Option.some.injEq] at head
    subst head
    simp only [List.dropWhile_cons, decide_true]
    rcases contiguous.2 with others | goesOn
    · exact fun b mem => others b (List.dropWhile_sublist _ |>.subset mem)
    · exact Contiguous.dropWhile_key_ne contiguous.1 goesOn

/-- A block of one class, all together, with the list's other members on
either side. -/
theorem Contiguous.exists_block [DecidableEq κ] {l : List α} (contiguous : Contiguous key l) (k : κ) :
    ∃ mid post, l.dropWhile (fun b => !decide (key b = k)) = mid ++ post ∧ (∀ b ∈ mid, key b = k) ∧
      (∀ b ∈ post, key b ≠ k) ∧ (mid = [] → post = []) := by
  set rest := l.dropWhile (fun b => !decide (key b = k)) with restEq
  have restContiguous : Contiguous key rest := by
    have split : l.takeWhile (fun b => !decide (key b = k)) ++ rest = l := List.takeWhile_append_dropWhile
    rw [← split] at contiguous
    exact Contiguous.of_append contiguous
  -- the rest starts in the class, if it is not empty
  have startsIn : ∀ a tail, rest = a :: tail → key a = k := by
    intro a tail starts
    have headIn := List.head?_dropWhile_not (fun b => !decide (key b = k)) l
    rw [← restEq, starts] at headIn
    simpa using headIn
  refine ⟨rest.takeWhile (fun b => decide (key b = k)), rest.dropWhile (fun b => decide (key b = k)),
    List.takeWhile_append_dropWhile.symm, fun b mem => by simpa using List.mem_takeWhile_imp mem, ?_, ?_⟩
  · cases starts : rest with
    | nil => simp
    | cons a tail =>
      rw [← starts]
      exact Contiguous.dropWhile_key_ne restContiguous (by simp [starts, startsIn a tail starts])
  · intro empty
    cases starts : rest with
    | nil => simp
    | cons a tail => simp [starts, startsIn a tail starts] at empty

/-- Putting another block of one class in the place of its block keeps every
class together, as long as an empty block stood at the end. -/
theorem Contiguous.replace {mid mid' post : List α} {k : κ} (inMid : ∀ a ∈ mid, key a = k)
    (inMid' : ∀ a ∈ mid', key a = k) (outsidePost : ∀ a ∈ post, key a ≠ k) (closes : mid = [] → post = []) :
    ∀ {pre : List α}, (∀ a ∈ pre, key a ≠ k) → Contiguous key (pre ++ mid ++ post) →
      Contiguous key (pre ++ mid' ++ post)
  | [], _, contiguous => by
    have postContiguous : Contiguous key post := Contiguous.of_append contiguous
    -- the new block sits on a list that has none of its class
    induction mid' with
    | nil => exact postContiguous
    | cons a rest ih =>
      refine ⟨ih fun b mem => inMid' b (List.mem_cons_of_mem a mem), ?_⟩
      cases rest with
      | nil =>
        exact .inl fun b mem => inMid' a List.mem_cons_self ▸ outsidePost b (by simpa using mem)
      | cons b rest =>
        exact .inr (by simp [inMid' a List.mem_cons_self, inMid' b (by simp)])
  | a :: pre, outsidePre, contiguous => by
    have keyA : key a ≠ k := outsidePre a List.mem_cons_self
    refine ⟨Contiguous.replace inMid inMid' outsidePost closes
      (fun b mem => outsidePre b (List.mem_cons_of_mem a mem)) contiguous.1, ?_⟩
    rcases contiguous.2 with others | goesOn
    · refine .inl fun b mem => ?_
      rcases List.mem_append.1 mem with inFront | inPost
      · rcases List.mem_append.1 inFront with inPre | inNew
        · exact others b (List.mem_append_left _ (List.mem_append_left _ inPre))
        · rw [inMid' b inNew]
          exact Ne.symm keyA
      · exact others b (List.mem_append_right _ inPost)
    · refine .inr ?_
      cases pre with
      | cons c pre => simpa using goesOn
      | nil =>
        cases mid with
        | cons c mid =>
          have keyC : key c = key a := by simpa using goesOn
          exact absurd (keyC ▸ inMid c List.mem_cons_self) keyA
        | nil => simp [closes rfl] at goesOn

section Blocks

variable [DecidableEq κ] {pre mid post : List α} {k : κ}

/-- The members of a class that stands as one block are that block. -/
theorem filter_block_self (outsidePre : ∀ a ∈ pre, key a ≠ k) (inMid : ∀ a ∈ mid, key a = k)
    (outsidePost : ∀ a ∈ post, key a ≠ k) : (pre ++ mid ++ post).filter (fun a => key a = k) = mid := by
  rw [List.filter_append, List.filter_append, List.filter_eq_nil_iff.2 (by simpa using outsidePre),
    List.filter_eq_self.2 (by simpa using inMid), List.filter_eq_nil_iff.2 (by simpa using outsidePost),
    List.nil_append, List.append_nil]

/-- The members of another class do not see the block. -/
theorem filter_block_other (inMid : ∀ a ∈ mid, key a = k) {k' : κ} (other : k' ≠ k) :
    (pre ++ mid ++ post).filter (fun a => key a = k') = (pre ++ post).filter (fun a => key a = k') := by
  have none : mid.filter (fun a => key a = k') = [] :=
    List.filter_eq_nil_iff.2 fun a mem same => other ((of_decide_eq_true same).symm.trans (inMid a mem))
  rw [List.filter_append, List.filter_append, none, List.append_nil, List.filter_append]

end Blocks

end Contiguous

end Groups
