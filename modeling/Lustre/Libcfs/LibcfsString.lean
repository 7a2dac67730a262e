import Mathlib.Data.List.Basic
import Lustre.Library.Loop

/-!
# Tokens and range expressions of libcfs

`libcfs_string.c` splits a string into tokens with `cfs_gettok`, converts
numbers with `cfs_str2num_check`, and parses, matches and prints the range
expressions `<number>`, `<number>-<number>` and `<number>-<number>/<number>`
and the bracketed lists of them (`cfs_expr_list`) that NID lists and CPU
lists are written in.

A string is a `List Char` that runs to the end of the buffer: a routine may
read past the length it is handed (`simple_strtoul` reads digits up to the
first other character), and the end of the list is the terminating NUL.  A
`cfs_lstr` is a place in such a string, or NULL, and a length.  Numbers are
read by the kernel's `simple_strtoul`, which takes the base from a `0` or `0x`
prefix and skips no blanks.

A routine's result is wrapped in an `Option` that is `none` where the code
dereferences a NULL string or divides by zero; inside, the result says whether
the input parsed.  The module proves that `cfs_gettok` always shortens what is
left of a string, so that the loops over tokens end within its length, and
what `cfs_expr_list_match` decides: a value matches when it lies in one of the
ranges on its stride, provided no stride is zero.  A range such as `[1-5/]`
parses with stride zero (the structure is allocated zeroed and the stride is
never stored), and matching a value in it divides by zero.
-/

namespace Lustre
namespace Libcfs

/-- `EINVAL`. -/
def einval : Int := 22

/-- `isspace` of the kernel's ctype table: the ASCII blanks and the Latin-1
no-break space. -/
def isSpace (c : Char) : Bool :=
  c == ' ' || c == '\t' || c == '\n' || c == '\x0b' || c == '\x0c' || c == '\r' || c == '\xa0'

/-- `struct cfs_lstr`: the characters from `ls_str` to the end of the buffer
(`none` for NULL) and the length `ls_len` of the part that is meant. -/
structure CfsLstr where
  lsStr : Option (List Char)
  lsLen : Nat
  deriving DecidableEq, Repr

/-! ## Tokens -/

/-- The length of a token that starts at the front of `region`, without the
blanks at its end: `cfs_gettok` walks back from the end of the region and
stops at the first character, which it never looks at. -/
def trimmedLength (region : List Char) : Nat :=
  ((region.drop 1).reverse.dropWhile isSpace).length + 1

/-- `cfs_gettok(next, delim, res)`: the token `res` before the next `delim`
and what is left of `next` after the delimiter (NULL when there is none);
`none` when `next` is NULL, holds only blanks or starts with `delim`. -/
def cfsGettok (next : CfsLstr) (delim : Char) : Option (CfsLstr × CfsLstr) := do
  let str ← next.lsStr
  -- skip leading white spaces
  let blanks := ((str.take next.lsLen).takeWhile isSpace).length
  let str := str.drop blanks
  let len := next.lsLen - blanks
  if len = 0 then none
  else if str.head? = some delim then none
  else
    match (str.take len).idxOf? delim with
    | none => some (⟨some str, trimmedLength (str.take len)⟩, ⟨none, len⟩)
    | some i => some (⟨some str, trimmedLength (str.take i)⟩, ⟨some (str.drop (i + 1)), len - (i + 1)⟩)

/-- What a loop over tokens has left to do: nothing once its string is NULL,
and at most the length of the string otherwise. -/
def CfsLstr.rank (src : CfsLstr) : Nat :=
  match src.lsStr with
  | none => 0
  | some _ => src.lsLen + 1

theorem CfsLstr.rank_eq (src : CfsLstr) :
    src.rank =
      match src.lsStr with
      | none => 0
      | some _ => src.lsLen + 1 := rfl

/-- A token is never NULL and never empty. -/
theorem cfsGettok_token {next tok rest : CfsLstr} {delim : Char}
    (got : cfsGettok next delim = some (tok, rest)) : tok.lsStr.isSome ∧ 0 < tok.lsLen := by
  simp only [cfsGettok, Option.bind_eq_bind, Option.bind_eq_some_iff] at got
  obtain ⟨str, -, got⟩ := got
  split at got
  · cases got
  · split at got
    · cases got
    · split at got <;>
      · cases got
        simp [trimmedLength]

/-- What `cfs_gettok` leaves is shorter than what it was handed. -/
theorem cfsGettok_rank_lt {next tok rest : CfsLstr} {delim : Char}
    (got : cfsGettok next delim = some (tok, rest)) : rest.rank < next.rank := by
  simp only [cfsGettok, Option.bind_eq_bind, Option.bind_eq_some_iff] at got
  obtain ⟨str, isStr, got⟩ := got
  have below : next.rank = next.lsLen + 1 := by simp [CfsLstr.rank_eq, isStr]
  split at got
  · cases got
  · split at got
    · cases got
    · split at got
      · cases got
        rw [below]
        simp [CfsLstr.rank_eq]
      · cases got
        rw [below]
        simp only [CfsLstr.rank_eq]
        omega

/-! ## The loop over tokens -/

section TokenLoop

variable {σ : Type}

/-- One round of the loops `while (src.ls_str != NULL) { if (!cfs_gettok(&src,
delim, &tok)) fail; ... }` of `cfs_expr_list_parse`, `cfs_ip_addr_parse` and
`cfs_parse_nidlist`: `step` takes the next token into what has been parsed,
and may refuse it (`some none`) or crash (`none`). -/
def tokenLoopBody (delim : Char) (step : σ → CfsLstr → Option (Option σ)) :
    CfsLstr × σ → Option (Option σ) ⊕ (CfsLstr × σ)
  | (src, parsed) =>
    match src.lsStr with
    | none => .inl (some (some parsed))
    | some _ =>
      match cfsGettok src delim with
      | none => .inl (some none)
      | some (tok, rest) =>
        match step parsed tok with
        | none => .inl none
        | some none => .inl (some none)
        | some (some next) => .inr (rest, next)

theorem tokenLoopBody_eq (delim : Char) (step : σ → CfsLstr → Option (Option σ)) (src : CfsLstr) (parsed : σ) :
    tokenLoopBody delim step (src, parsed) =
      match src.lsStr with
      | none => .inl (some (some parsed))
      | some _ =>
        match cfsGettok src delim with
        | none => .inl (some none)
        | some (tok, rest) =>
          match step parsed tok with
          | none => .inl none
          | some none => .inl (some none)
          | some (some next) => .inr (rest, next) := rfl

/-- The loop over the tokens of `src`, run for as many rounds as `src` has
characters and two more, which is always enough (`gettokLoop_eq`). -/
def gettokLoop (delim : Char) (step : σ → CfsLstr → Option (Option σ))
    (src : CfsLstr) (parsed : σ) : Option (Option σ) :=
  (Loop.run (tokenLoopBody delim step) (src.lsLen + 2) (src, parsed)).join

variable {delim : Char} {step : σ → CfsLstr → Option (Option σ)}

theorem tokenLoopBody_leaves_or_lowers (state : CfsLstr × σ) :
    (∃ result, tokenLoopBody delim step state = .inl result) ∨
      ∃ next, tokenLoopBody delim step state = .inr next ∧ next.1.rank < state.1.rank := by
  obtain ⟨src, parsed⟩ := state
  simp only [tokenLoopBody_eq]
  split
  · exact .inl ⟨_, rfl⟩
  · split
    · exact .inl ⟨_, rfl⟩
    · rename_i tok rest got
      split
      · exact .inl ⟨_, rfl⟩
      · exact .inl ⟨_, rfl⟩
      · exact .inr ⟨_, rfl, cfsGettok_rank_lt got⟩

/-- The loop leaves within one round more than the rank of its string. -/
theorem tokenLoop_run (src : CfsLstr) (parsed : σ) (fuel : Nat) (enough : src.rank < fuel) :
    ∃ result, Loop.run (tokenLoopBody delim step) fuel (src, parsed) = some result := by
  obtain ⟨result, -, ran⟩ := Loop.run_of_ranked
    (fun rank state => state.1.rank = rank) (fun _ => True)
    (fun rank state isRank => by
      rcases @tokenLoopBody_leaves_or_lowers σ delim step state with
        ⟨result, leaves⟩ | ⟨next, goesOn, lower⟩
      · exact .inl ⟨result, leaves, trivial⟩
      · exact .inr ⟨_, next, isRank ▸ lower, goesOn, rfl⟩)
    _ (src, parsed) rfl fuel enough
  exact ⟨result, ran⟩

theorem rank_lt_lsLen_add_two (src : CfsLstr) : src.rank < src.lsLen + 2 := by
  rw [CfsLstr.rank_eq]
  split <;> omega

/-- The loop over tokens takes them one at a time until the string is NULL;
its fuel never runs out. -/
theorem gettokLoop_eq (src : CfsLstr) (parsed : σ) :
    gettokLoop delim step src parsed =
      match src.lsStr with
      | none => some (some parsed)
      | some _ =>
        match cfsGettok src delim with
        | none => some none
        | some (tok, rest) =>
          match step parsed tok with
          | none => none
          | some none => some none
          | some (some next) => gettokLoop delim step rest next := by
  unfold gettokLoop
  cases isStr : src.lsStr with
  | none => simp [Loop.run_succ, tokenLoopBody_eq, isStr]
  | some str =>
    cases got : cfsGettok src delim with
    | none => simp [Loop.run_succ, tokenLoopBody_eq, isStr, got]
    | some pair =>
      obtain ⟨tok, rest⟩ := pair
      cases took : step parsed tok with
      | none => simp [Loop.run_succ, tokenLoopBody_eq, isStr, got, took]
      | some taken =>
        cases taken with
        | none => simp [Loop.run_succ, tokenLoopBody_eq, isStr, got, took]
        | some next =>
          have goesOn : tokenLoopBody delim step (src, parsed) = .inr (rest, next) := by
            simp [tokenLoopBody_eq, isStr, got, took]
          rw [Loop.run_succ_of_next goesOn]
          -- the round left `src.lsLen + 1` rounds, more than `rest` needs
          have lower : rest.rank < src.lsLen + 1 := by
            have shorter := cfsGettok_rank_lt got
            simpa [CfsLstr.rank_eq, isStr] using shorter
          obtain ⟨result, ran⟩ := @tokenLoop_run σ delim step rest next _ lower
          obtain ⟨result', ran'⟩ := @tokenLoop_run σ delim step rest next _ (rank_lt_lsLen_add_two rest)
          simp only [took, ran, ran', Loop.run_unique ran ran']

/-- What holds of the value a loop over tokens starts from, and of every value
a step makes from one where it holds, holds of what the loop returns. -/
theorem gettokLoop_induction (inv : σ → Prop)
    (keeps : ∀ parsed tok next, inv parsed → step parsed tok = some (some next) → inv next)
    (src : CfsLstr) (parsed out : σ) (start : inv parsed)
    (ran : gettokLoop delim step src parsed = some (some out)) : inv out := by
  obtain ⟨rank, isRank⟩ : ∃ rank, src.rank = rank := ⟨_, rfl⟩
  -- strong induction on the rank of the string left
  induction rank using Nat.strongRecOn generalizing src parsed with
  | _ rank ih =>
    rw [gettokLoop_eq] at ran
    split at ran
    · cases ran
      exact start
    · split at ran
      · cases ran
      · rename_i tok rest got
        split at ran
        · cases ran
        · cases ran
        · rename_i next took
          exact ih rest.rank (isRank ▸ cfsGettok_rank_lt got) rest next (keeps _ _ _ start took) ran rfl

end TokenLoop

/-! ## Numbers -/

/-- The value of a hexadecimal digit (`isxdigit`); `none` for other characters. -/
def xdigitValue (c : Char) : Option Nat :=
  if '0' ≤ c ∧ c ≤ '9' then some (c.toNat - '0'.toNat)
  else if 'a' ≤ c ∧ c ≤ 'f' then some (c.toNat - 'a'.toNat + 10)
  else if 'A' ≤ c ∧ c ≤ 'F' then some (c.toNat - 'A'.toNat + 10)
  else none

/-- `TOLOWER(c) == 'x'`. -/
def isX (c : Char) : Bool := c == 'x' || c == 'X'

/-- `simple_guess_base`: 16 after `0x` and a digit, 8 after any other `0`, and 10. -/
def simpleGuessBase : List Char → Nat
  | '0' :: x :: d :: _ => if isX x ∧ (xdigitValue d).isSome then 16 else 8
  | '0' :: _ => 8
  | _ => 10

/-- `cp[0] == '0' && TOLOWER(cp[1]) == 'x'`. -/
def hasHexPrefix : List Char → Bool
  | '0' :: x :: _ => isX x
  | _ => false

/-- The digit loop of `simple_strtoul` from the value `acc`: the value of the
digits below `base` at the front, and how many there are. -/
def strtoulDigits (base : Nat) : List Char → Nat → Nat × Nat
  | [], acc => (acc, 0)
  | c :: cs, acc =>
    match xdigitValue c with
    | some value =>
      if value < base then
        let (result, read) := strtoulDigits base cs (acc * base + value)
        (result, read + 1)
      else (acc, 0)
    | none => (acc, 0)

/-- `simple_strtoul(cp, &endp, base)` of the kernel: the value as an `unsigned
long`, and how far `endp` ends up from `cp`. -/
def simpleStrtoul (cp : List Char) (base : Nat) : UInt64 × Nat :=
  let base := if base = 0 then simpleGuessBase cp else base
  let skip := if base = 16 ∧ hasHexPrefix cp then 2 else 0
  let (result, read) := strtoulDigits base (cp.drop skip) 0
  (result.toUInt64, skip + read)

/-- `cfs_str2num_check(str, nob, &num, min, max)`: whether the first `nob`
characters of `str` are a number in `[min, max]` and blanks after it, and the
value stored in `num`, which is stored also when the check fails. -/
def cfsStr2numCheck (str : List Char) (nob : Nat) (min max : UInt32) : Bool × UInt32 :=
  let (result, read) := simpleStrtoul str 0
  let num := result.toUInt32
  if read = 0 then (false, num)
  else if ((str.drop read).take (nob - read)).all isSpace then (decide (min ≤ num ∧ num ≤ max), num)
  else (false, num)

/-- `cfs_str2num_check` on the string and length of `src`: `none` when the
string is NULL, which `simple_strtoul` dereferences. -/
def CfsLstr.str2num (src : CfsLstr) (min max : UInt32) : Option (Bool × UInt32) :=
  src.lsStr.map fun str => cfsStr2numCheck str src.lsLen min max

/-! ## Range expressions -/

/-- `struct cfs_range_expr`. -/
structure CfsRangeExpr where
  reLo : UInt32
  reHi : UInt32
  reStride : UInt32
  deriving DecidableEq, Repr

/-- `cfs_range_expr_parse(src, min, max, bracketed)`: `*`, a number, or, inside
brackets, `lo-hi` and `lo-hi/stride`.  The structure is allocated zeroed, and a
field is stored by every `cfs_str2num_check` on it, also by one that fails. -/
def cfsRangeExprParse (src : CfsLstr) (min max : UInt32) (bracketed : Bool) :
    Option (Except Int CfsRangeExpr) := do
  let str ← src.lsStr
  if src.lsLen = 1 ∧ str.head? = some '*' then return .ok ⟨min, max, 1⟩
  let (parsed, lo) := cfsStr2numCheck str src.lsLen min max
  if parsed then return .ok ⟨lo, lo, 1⟩
  if ¬ bracketed then return .error (-einval)
  match cfsGettok src '-' with
  | none => return .error (-einval)
  | some (tok, src) =>
    let (parsed, lo) ← tok.str2num min max
    if ¬ parsed then return .error (-einval)
    -- `<number> -`; the string is NULL when the token held no '-'
    let (parsed, hi) ← src.str2num min max
    if parsed then return .ok ⟨lo, hi, 1⟩
    match cfsGettok src '/' with
    -- `goto out` with the stride still zero
    | none => return .ok ⟨lo, hi, 0⟩
    | some (tok, src) =>
      let (parsed, hi) ← tok.str2num min max
      if ¬ parsed then return .error (-einval)
      let (_, stride) ← src.str2num min max
      return .ok ⟨lo, hi, stride⟩

/-- `struct cfs_expr_list`. -/
structure CfsExprList where
  elExprs : List CfsRangeExpr
  deriving DecidableEq, Repr

/-- `cfs_expr_list_parse(str, len, min, max)`: a bracketed list of range
expressions separated by ',', or one expression without brackets. -/
def cfsExprListParse (str : List Char) (len : Nat) (min max : UInt32) :
    Option (Except Int CfsExprList) :=
  if str.head? = some '[' ∧ (str.take len).getLast? = some ']' then
    let parsed := gettokLoop ','
      (fun exprs tok => (cfsRangeExprParse tok min max true).map fun
        | .ok expr => some (exprs ++ [expr])
        | .error _ => none)
      ⟨some (str.drop 1), len - 2⟩ []
    parsed.map fun
      | some exprs => .ok ⟨exprs⟩
      | none => .error (-einval)
  else
    (cfsRangeExprParse ⟨some str, len⟩ min max false).map fun
      | .ok expr => .ok ⟨[expr]⟩
      | .error rc => .error rc

/-- An expression list that parses holds at least one expression. -/
theorem cfsExprListParse_ne_nil {str : List Char} {len : Nat} {min max : UInt32}
    {exprList : CfsExprList} (parsed : cfsExprListParse str len min max = some (.ok exprList)) :
    exprList.elExprs ≠ [] := by
  unfold cfsExprListParse at parsed
  split at parsed
  · obtain ⟨result, ran, made⟩ := Option.map_eq_some_iff.mp parsed
    rw [gettokLoop_eq] at ran
    simp only at ran
    split at ran
    · cases ran
      simp at made
    · rename_i tok rest got
      -- the first token gives the first expression; later ones only add to it
      split at ran
      · cases ran
      · cases ran
        simp at made
      · rename_i first took
        obtain ⟨out, rfl⟩ : ∃ out, result = some out := by
          cases result with
          | none => simp at made
          | some out => exact ⟨out, rfl⟩
        simp only [Except.ok.injEq] at made
        subst made
        have started : first ≠ [] := by
          obtain ⟨answer, -, gave⟩ := Option.map_eq_some_iff.mp took
          split at gave
          · cases gave
            simp
          · cases gave
        refine gettokLoop_induction (fun exprs => exprs ≠ []) ?_ rest first out started ran
        intro parsed tok next _ stepped
        obtain ⟨answer, -, gave⟩ := Option.map_eq_some_iff.mp stepped
        split at gave
        · cases gave
          simp
        · cases gave
  · obtain ⟨answer, -, gave⟩ := Option.map_eq_some_iff.mp parsed
    split at gave
    · cases gave
      simp
    · cases gave

/-! ## Matching -/

/-- The test of `cfs_expr_list_match` on one range: `none` when `value` lies
between its ends and its stride is zero, so that `%` divides by zero. -/
def CfsRangeExpr.matches (expr : CfsRangeExpr) (value : UInt32) : Option Bool :=
  if value ≥ expr.reLo ∧ value ≤ expr.reHi then
    if expr.reStride = 0 then none else some (decide ((value - expr.reLo) % expr.reStride = 0))
  else some false

/-- `cfs_expr_list_match`: the first range that matches ends the walk. -/
def cfsExprListMatch (value : UInt32) (exprList : CfsExprList) : Option Bool :=
  exprList.elExprs.anyM fun expr => expr.matches value

/-- A walk that stops at the first element a test accepts decides whether some
element passes, when the test decides that on each element without crashing. -/
theorem anyM_decides {α : Type} {test : α → Option Bool} {passes : α → Prop} {xs : List α}
    (decides : ∀ x ∈ xs, ∃ b, test x = some b ∧ (b = true ↔ passes x)) :
    ∃ b, xs.anyM test = some b ∧ (b = true ↔ ∃ x ∈ xs, passes x) := by
  induction xs with
  | nil => exact ⟨false, rfl, by simp⟩
  | cons x xs ih =>
    obtain ⟨first, tested, firstIff⟩ := decides x (by simp)
    obtain ⟨rest, walked, restIff⟩ := ih fun y mem => decides y (by simp [mem])
    cases first with
    | true =>
      refine ⟨true, by simp [tested], ?_⟩
      simp only [true_iff]
      exact ⟨x, by simp, firstIff.mp rfl⟩
    | false =>
      refine ⟨rest, by simp [tested, walked], ?_⟩
      rw [restIff]
      constructor
      · rintro ⟨y, mem, holds⟩
        exact ⟨y, by simp [mem], holds⟩
      · rintro ⟨y, mem, holds⟩
        rcases List.mem_cons.mp mem with rfl | later
        · exact absurd (firstIff.mpr holds) (by simp)
        · exact ⟨y, later, holds⟩

/-- A range holds the values between its ends that its stride reaches from
the low end. -/
def CfsRangeExpr.Contains (expr : CfsRangeExpr) (value : UInt32) : Prop :=
  expr.reLo ≤ value ∧ value ≤ expr.reHi ∧ (value - expr.reLo) % expr.reStride = 0

instance (expr : CfsRangeExpr) (value : UInt32) : Decidable (expr.Contains value) :=
  inferInstanceAs (Decidable (_ ∧ _ ∧ _))

/-- On a range of nonzero stride the test decides whether the range holds the
value. -/
theorem CfsRangeExpr.matches_eq (expr : CfsRangeExpr) (value : UInt32)
    (strided : expr.reStride ≠ 0) : expr.matches value = some (decide (expr.Contains value)) := by
  unfold CfsRangeExpr.matches
  by_cases between : value ≥ expr.reLo ∧ value ≤ expr.reHi
  · rw [if_pos between, if_neg strided, Option.some.injEq, decide_eq_decide]
    exact ⟨fun onStride => ⟨between.1, between.2, onStride⟩, fun holds => holds.2.2⟩
  · rw [if_neg between]
    exact congrArg some (decide_eq_false fun ⟨above, below, _⟩ => between ⟨above, below⟩).symm

/-- Over ranges of nonzero stride, a value matches an expression list exactly
when one of its ranges holds it. -/
theorem cfsExprListMatch_eq (value : UInt32) (exprList : CfsExprList)
    (strided : ∀ expr ∈ exprList.elExprs, expr.reStride ≠ 0) :
    cfsExprListMatch value exprList =
      some (decide (∃ expr ∈ exprList.elExprs, expr.Contains value)) := by
  obtain ⟨exprs⟩ := exprList
  simp only [cfsExprListMatch] at strided ⊢
  induction exprs with
  | nil => simp [List.anyM]
  | cons expr exprs ih =>
    have first := expr.matches_eq value (strided expr (by simp))
    have rest := ih fun other mem => strided other (by simp [mem])
    by_cases holds : expr.Contains value
    · simp [List.anyM, first, holds]
    · simp [List.anyM, first, holds, rest]

/-- Range lists that `cfs_expr_list_parse` takes against its grammar: a stride
left out (`[1-5/]`) and a stride of zero within the bounds (`[0-4/0]`) keep
stride zero, so that matching a value of the range divides by zero; and a
blank after the dash (`[1- 5]`) sends the stride check to the NULL string
that `cfs_gettok` leaves when no '/' follows. -/
theorem cfsExprListParse_admits_zero_stride :
    cfsExprListParse ['[', '1', '-', '5', '/', ']'] 6 0 255 = some (.ok ⟨[⟨1, 5, 0⟩]⟩) ∧
      cfsExprListMatch 3 ⟨[⟨1, 5, 0⟩]⟩ = none ∧
      cfsExprListParse ['[', '0', '-', '4', '/', '0', ']'] 7 0 255 = some (.ok ⟨[⟨0, 4, 0⟩]⟩) ∧
      cfsExprListMatch 2 ⟨[⟨0, 4, 0⟩]⟩ = none ∧
      cfsExprListParse ['[', '1', '-', ' ', '5', ']'] 6 0 255 = none :=
  ⟨by rfl, by decide, by rfl, by decide, by rfl⟩

/-! ## Printing -/

/-- `%u`. -/
def printU (n : UInt32) : List Char := Nat.toDigits 10 n.toNat

theorem printU_eq (n : UInt32) : printU n = Nat.toDigits 10 n.toNat := rfl

/-- `cfs_range_expr_print(expr, bracketed)`: `bracketed` says that the list
around it has its own brackets. -/
def cfsRangeExprPrint (expr : CfsRangeExpr) (bracketed : Bool) : List Char :=
  let s := if bracketed then [] else ['[']
  let e := if bracketed then [] else [']']
  if expr.reLo = expr.reHi then printU expr.reLo
  else if expr.reStride = 1 then s ++ printU expr.reLo ++ ['-'] ++ printU expr.reHi ++ e
  else s ++ printU expr.reLo ++ ['-'] ++ printU expr.reHi ++ ['/'] ++ printU expr.reStride ++ e

/-- `cfs_expr_list_print`: brackets and commas when there is more than one
expression. -/
def cfsExprListPrint (exprList : CfsExprList) : List Char :=
  let several := decide (1 < exprList.elExprs.length)
  let body := [','].intercalate (exprList.elExprs.map fun expr => cfsRangeExprPrint expr several)
  if several then ['['] ++ body ++ [']'] else body

end Libcfs
end Lustre
