import Mathlib.Logic.Function.Basic
import Mathlib.Tactic.Ring

/-!
# The slots of a libcfs binary heap (libcfs/heap.c)

`cfs_binheap_t` keeps its node pointers in pages of `CBH_SIZE` = 512
pointers: the first 512 slots in the page `cbh_elements1`, the next `512 ^ 2`
in pages listed by the page `cbh_elements2`, and the next `512 ^ 3` in pages
listed by pages listed by `cbh_elements3`.  `cfs_binheap_pointer` finds the
cell of a slot by that indirection, and `cfs_binheap_grow` adds the pages for
the next 512 slots at the high-water mark `cbh_hwm`.

Memory is modelled as numbered pages of cells, each cell NULL, a pointer to a
page, or a pointer to a heap node.  `CBH_ALLOC` hands out the next number, a
page of NULL pointers, or fails; a page a failed grow frees is never read
again, and the model forgets it.  A routine returns `none` where the code
dereferences NULL or an assertion fails.

`Layout` describes the pages of a heap by the role each page plays: the leaf
page of each run of 512 slots below the high-water mark, the middle page of
each 2nd-level index of the triple-indirect part, and the two tables.  Each
role in use has its own page, handed out before `cbh_next`.  Under it,
`cfs_binheap_pointer` gives slot `i` the cell `i % 512` of the leaf page of
run `i / 512` below the mark and nothing above it (`cfsBinheapPointer_eq`),
so that distinct slots have distinct cells, and a grow that succeeds raises
the mark by 512 and keeps a layout (`Layout.cfsBinheapGrow`).
-/

namespace Lustre
namespace Libcfs

/-- `CBH_SHIFT`. -/
def cbhShift : Nat := 9

/-- `CBH_SIZE`: the pointers in a page. -/
def cbhSize : Nat := 1 <<< cbhShift

/-- `CBH_MASK`. -/
def cbhMask : Nat := cbhSize - 1

/-- `CBH_POISON`, the index of a node removed from a heap. -/
def cbhPoison : Nat := 0xdeadbeef

/-- `ENOMEM`. -/
def enomem : Int := 12

@[simp] theorem cbhSize_eq : cbhSize = 512 := by decide

theorem shiftRight_cbhShift (x : Nat) : x >>> cbhShift = x / cbhSize := by
  rw [Nat.shiftRight_eq_div_pow]
  rfl

theorem shiftRight_two_cbhShift (x : Nat) : x >>> (2 * cbhShift) = x / (cbhSize * cbhSize) := by
  rw [Nat.shiftRight_eq_div_pow]
  rfl

theorem and_cbhMask (x : Nat) : x &&& cbhMask = x % cbhSize := by
  rw [show cbhMask = 2 ^ 9 - 1 from rfl, Nat.and_two_pow_sub_one_eq_mod]
  rfl

/-- A pointer in a page: NULL, a page, or a heap node. -/
inductive Cell (ι : Type) where
  | null
  | page (id : Nat)
  | node (e : ι)
  deriving DecidableEq

namespace Cell

variable {ι : Type}

/-- The page a cell points to. -/
def page? : Cell ι → Option Nat
  | page id => some id
  | _ => none

/-- The node a cell points to. -/
def node? : Cell ι → Option ι
  | node e => some e
  | _ => none

@[simp] theorem page?_page (id : Nat) : (page id : Cell ι).page? = some id := rfl
@[simp] theorem page?_null : (null : Cell ι).page? = none := rfl
@[simp] theorem node?_node (e : ι) : (node e).node? = some e := rfl
@[simp] theorem node?_null : (null : Cell ι).node? = none := rfl

end Cell

/-- `cfs_binheap_t` with the pages it allocated, and the `chn_index` of every
node, which the heap writes.  The flags, the private argument and the CPT
placement only choose how pages are allocated. -/
structure CfsBinheap (ι : Type) where
  /-- `cbh_elements3`: the page of the triple-indirect part, or NULL. -/
  cbhElements3 : Option Nat
  /-- `cbh_elements2`: the page of the double-indirect part, or NULL. -/
  cbhElements2 : Option Nat
  /-- `cbh_elements1`: the page of the first 512 slots, or NULL. -/
  cbhElements1 : Option Nat
  /-- `cbh_nelements`. -/
  cbhNelements : Nat
  /-- `cbh_hwm`: the slots there are pages for. -/
  cbhHwm : Nat
  /-- The pages, by number, and their cells. -/
  cbhPages : Nat → Nat → Cell ι
  /-- The number the next page allocated gets. -/
  cbhNext : Nat
  /-- `chn_index` of each node. -/
  chnIndex : ι → Nat

namespace CfsBinheap

variable {ι : Type}

/-- The cell at an address: a page and a place in it. -/
def read (h : CfsBinheap ι) (addr : Nat × Nat) : Cell ι := h.cbhPages addr.1 addr.2

theorem read_eq (h : CfsBinheap ι) (addr : Nat × Nat) : h.read addr = h.cbhPages addr.1 addr.2 := rfl

/-- Store a cell at an address. -/
def store (h : CfsBinheap ι) (addr : Nat × Nat) (c : Cell ι) : CfsBinheap ι :=
  { h with cbhPages := Function.update h.cbhPages addr.1 (Function.update (h.cbhPages addr.1) addr.2 c) }

theorem store_cbhPages (h : CfsBinheap ι) (addr : Nat × Nat) (c : Cell ι) :
    (h.store addr c).cbhPages = Function.update h.cbhPages addr.1 (Function.update (h.cbhPages addr.1) addr.2 c) :=
  rfl

/-- `h->cbh_hwm += CBH_SIZE`. -/
def raiseHwm (h : CfsBinheap ι) : CfsBinheap ι := { h with cbhHwm := h.cbhHwm + cbhSize }

@[simp] theorem read_store_self (h : CfsBinheap ι) (addr : Nat × Nat) (c : Cell ι) :
    (h.store addr c).read addr = c := by
  simp [read_eq, store_cbhPages]

theorem read_store_of_ne (h : CfsBinheap ι) {addr addr' : Nat × Nat} (c : Cell ι) (other : addr' ≠ addr) :
    (h.store addr c).read addr' = h.read addr' := by
  obtain ⟨p', j'⟩ := addr'
  obtain ⟨p, j⟩ := addr
  simp only [read_eq, store_cbhPages]
  by_cases samePage : p' = p
  · subst samePage
    have otherCell : j' ≠ j := fun same => other (by rw [same])
    simp [Function.update_of_ne otherCell]
  · simp [Function.update_of_ne samePage]

theorem read_store_of_page_ne (h : CfsBinheap ι) {addr addr' : Nat × Nat} (c : Cell ι) (other : addr'.1 ≠ addr.1) :
    (h.store addr c).read addr' = h.read addr' :=
  h.read_store_of_ne c fun same => other (by rw [same])

@[simp] theorem store_cbhHwm (h : CfsBinheap ι) (addr : Nat × Nat) (c : Cell ι) :
    (h.store addr c).cbhHwm = h.cbhHwm := rfl
@[simp] theorem store_cbhNelements (h : CfsBinheap ι) (addr : Nat × Nat) (c : Cell ι) :
    (h.store addr c).cbhNelements = h.cbhNelements := rfl
@[simp] theorem store_cbhElements1 (h : CfsBinheap ι) (addr : Nat × Nat) (c : Cell ι) :
    (h.store addr c).cbhElements1 = h.cbhElements1 := rfl
@[simp] theorem store_cbhElements2 (h : CfsBinheap ι) (addr : Nat × Nat) (c : Cell ι) :
    (h.store addr c).cbhElements2 = h.cbhElements2 := rfl
@[simp] theorem store_cbhElements3 (h : CfsBinheap ι) (addr : Nat × Nat) (c : Cell ι) :
    (h.store addr c).cbhElements3 = h.cbhElements3 := rfl
@[simp] theorem store_cbhNext (h : CfsBinheap ι) (addr : Nat × Nat) (c : Cell ι) :
    (h.store addr c).cbhNext = h.cbhNext := rfl
@[simp] theorem store_chnIndex (h : CfsBinheap ι) (addr : Nat × Nat) (c : Cell ι) :
    (h.store addr c).chnIndex = h.chnIndex := rfl

@[simp] theorem read_raiseHwm (h : CfsBinheap ι) (addr : Nat × Nat) : h.raiseHwm.read addr = h.read addr := rfl
@[simp] theorem cbhPages_raiseHwm (h : CfsBinheap ι) : h.raiseHwm.cbhPages = h.cbhPages := rfl

end CfsBinheap

open CfsBinheap

variable {ι : Type}

/-- `CBH_ALLOC(ptr, h)`: the next page, of NULL pointers, or NULL when the
allocation fails. -/
def cbhAlloc (h : CfsBinheap ι) (fails : Bool) : Option (Nat × CfsBinheap ι) :=
  if fails then none else some (h.cbhNext, { h with cbhNext := h.cbhNext + 1 })

theorem cbhAlloc_false (h : CfsBinheap ι) : cbhAlloc h false = some (h.cbhNext, { h with cbhNext := h.cbhNext + 1 }) :=
  rfl

theorem cbhAlloc_true (h : CfsBinheap ι) : cbhAlloc h true = none := rfl

/-- `cfs_binheap_pointer(h, idx)`: the address of the cell of slot `idx`. -/
def cfsBinheapPointer (h : CfsBinheap ι) (idx : Nat) : Option (Nat × Nat) :=
  if idx < cbhSize then h.cbhElements1.map fun page => (page, idx)
  else
    let idx := idx - cbhSize
    if idx < cbhSize * cbhSize then do
      let table ← h.cbhElements2
      let page ← (h.read (table, idx >>> cbhShift)).page?
      return (page, idx &&& cbhMask)
    else do
      let idx := idx - cbhSize * cbhSize
      let table ← h.cbhElements3
      let middle ← (h.read (table, idx >>> (2 * cbhShift))).page?
      let page ← (h.read (middle, (idx >>> cbhShift) &&& cbhMask)).page?
      return (page, idx &&& cbhMask)

/-- The double-indirect part of `cfs_binheap_grow`, with `hwm` counted from the
first double-indirect slot; `oom` says which allocations fail, in order. -/
def growDouble (h : CfsBinheap ι) (hwm : Nat) (oom : List Bool) : Option (Int × CfsBinheap ι) :=
  match cbhAlloc h (oom.getD 0 false) with
  | none => some (-enomem, h)
  | some (frag2, h1) =>
    -- first use of double indirect
    let withTable := if hwm = 0 then
        (cbhAlloc h1 (oom.getD 1 false)).map fun (table, h2) => { h2 with cbhElements2 := some table }
      else some h1
    match withTable with
    | none => some (-enomem, h)
    | some h2 =>
      match h2.cbhElements2 with
      | none => none
      | some table => some (0, (h2.store (table, hwm >>> cbhShift) (.page frag2)).raiseHwm)

/-- The triple-indirect part of `cfs_binheap_grow`, with `hwm` counted from the
first triple-indirect slot. -/
def growTriple (h : CfsBinheap ι) (hwm : Nat) (oom : List Bool) : Option (Int × CfsBinheap ι) :=
  -- filled triple indirect (the check is compiled in: CBH_SHIFT * 3 < 32)
  if hwm ≥ cbhSize * cbhSize * cbhSize then some (-enomem, h)
  else
    match cbhAlloc h (oom.getD 0 false) with
    | none => some (-enomem, h)
    | some (frag2, h1) =>
      -- first use of this 2nd level index
      let withMiddle := if (hwm >>> cbhShift) &&& cbhMask = 0 then
          (cbhAlloc h1 (oom.getD 1 false)).map fun (frag1, h2) => (some frag1, h2)
        else some (none, h1)
      match withMiddle with
      | none => some (-enomem, h)
      | some (frag1, h2) =>
        -- first use of triple indirect
        let withTable := if hwm = 0 then
            (cbhAlloc h2 (oom.getD 2 false)).map fun (table, h3) => { h3 with cbhElements3 := some table }
          else some h2
        match withTable with
        | none => some (-enomem, h)
        | some h3 =>
          match h3.cbhElements3 with
          | none => none
          | some table =>
            let entry := (table, hwm >>> (2 * cbhShift))
            match frag1 with
            | some frag1 =>
              -- LASSERT(h->cbh_elements3[hwm >> (2 * CBH_SHIFT)] == NULL)
              match h3.read entry with
              | .null =>
                some (0, ((h3.store entry (.page frag1)).store (frag1, (hwm >>> cbhShift) &&& cbhMask)
                  (.page frag2)).raiseHwm)
              | _ => none
            | none =>
              -- frag1 = h->cbh_elements3[...]; LASSERT(frag1 != NULL)
              match (h3.read entry).page? with
              | none => none
              | some frag1 => some (0, (h3.store (frag1, (hwm >>> cbhShift) &&& cbhMask) (.page frag2)).raiseHwm)

/-- `cfs_binheap_grow(h)`: pages for the next `CBH_SIZE` slots, or `-ENOMEM`
with the heap as it was. -/
def cfsBinheapGrow (h : CfsBinheap ι) (oom : List Bool) : Option (Int × CfsBinheap ι) :=
  -- need a whole new chunk of pointers
  if h.cbhHwm &&& cbhMask ≠ 0 then none
  else if h.cbhHwm = 0 then
    -- first use of single indirect
    match cbhAlloc h (oom.getD 0 false) with
    | none => some (-enomem, h)
    | some (elements1, h1) => some (0, { h1 with cbhElements1 := some elements1 }.raiseHwm)
  else if h.cbhHwm - cbhSize < cbhSize * cbhSize then growDouble h (h.cbhHwm - cbhSize) oom
  else growTriple h (h.cbhHwm - cbhSize - cbhSize * cbhSize) oom


/-! ## The layout of the pages -/

/-- What a page of a heap is for. -/
inductive PageRole where
  /-- the page of the slots from `512 * k` to `512 * k + 511` -/
  | leaf (k : Nat)
  /-- the page `cbh_elements3[q]` of the triple-indirect part -/
  | middle (q : Nat)
  /-- the page `cbh_elements2` -/
  | double
  /-- the page `cbh_elements3` -/
  | triple
  deriving DecidableEq

/-- The runs of 512 slots a heap has pages for. -/
def CfsBinheap.runs (h : CfsBinheap ι) : Nat := h.cbhHwm / cbhSize

theorem CfsBinheap.runs_eq (h : CfsBinheap ι) : h.runs = h.cbhHwm / cbhSize := rfl

/-- The roles pages play in a heap with pages for `runs` runs: run 0 is in
`cbh_elements1`, runs 1 to 512 in the double-indirect part, and runs from 513
on in the triple-indirect part, 512 to each middle page. -/
def PageRole.InUse (runs : Nat) : PageRole → Prop
  | leaf k => k < runs
  | middle q => 513 + 512 * q < runs
  | double => 2 ≤ runs
  | triple => 514 ≤ runs

@[simp] theorem PageRole.inUse_leaf {runs k : Nat} : (leaf k).InUse runs ↔ k < runs := Iff.rfl

@[simp] theorem PageRole.inUse_middle {runs q : Nat} :
    (middle q).InUse runs ↔ 513 + 512 * q < runs := Iff.rfl

@[simp] theorem PageRole.inUse_double {runs : Nat} : double.InUse runs ↔ 2 ≤ runs := Iff.rfl

@[simp] theorem PageRole.inUse_triple {runs : Nat} : triple.InUse runs ↔ 514 ≤ runs := Iff.rfl

/-- The pages of a heap: each role in use has its own page, handed out
before `cbh_next`, the tables point to the pages of their runs, and the
pages not handed out are NULL. -/
structure Layout (h : CfsBinheap ι) (pageOf : PageRole → Nat) : Prop where
  aligned : h.cbhHwm % cbhSize = 0
  bounded : h.cbhHwm ≤ cbhSize + cbhSize * cbhSize + cbhSize * cbhSize * cbhSize
  elements1 : h.cbhElements1 = if 1 ≤ h.runs then some (pageOf (.leaf 0)) else none
  elements2 : h.cbhElements2 = if 2 ≤ h.runs then some (pageOf .double) else none
  elements3 : h.cbhElements3 = if 514 ≤ h.runs then some (pageOf .triple) else none
  doubleTable : 2 ≤ h.runs → ∀ j, h.read (pageOf .double, j) =
    if j < 512 ∧ j + 1 < h.runs then .page (pageOf (.leaf (j + 1))) else .null
  tripleTable : 514 ≤ h.runs → ∀ q, h.read (pageOf .triple, q) =
    if 513 + 512 * q < h.runs then .page (pageOf (.middle q)) else .null
  middleTable : ∀ q, 513 + 512 * q < h.runs → ∀ s, h.read (pageOf (.middle q), s) =
    if s < 512 ∧ 513 + 512 * q + s < h.runs then .page (pageOf (.leaf (513 + 512 * q + s))) else .null
  distinct : ∀ a b, a.InUse h.runs → b.InUse h.runs → pageOf a = pageOf b → a = b
  allocated : ∀ a, a.InUse h.runs → pageOf a < h.cbhNext
  fresh : ∀ p, h.cbhNext ≤ p → ∀ j, h.cbhPages p j = .null

variable {h : CfsBinheap ι} {pageOf : PageRole → Nat}

theorem Layout.hwm_eq (laid : Layout h pageOf) : h.cbhHwm = 512 * h.runs := by
  have := laid.aligned
  simp only [CfsBinheap.runs_eq, cbhSize_eq] at this ⊢
  omega


/-- Below the high-water mark slot `i` is the cell `i % 512` of the page of
its run; above it there is no cell. -/
theorem Layout.cfsBinheapPointer_eq (laid : Layout h pageOf) (i : Nat) :
    cfsBinheapPointer h i = if i < h.cbhHwm then some (pageOf (.leaf (i / cbhSize)), i % cbhSize) else none := by
  have hwm := laid.hwm_eq
  have bound := laid.bounded
  simp only [cbhSize_eq] at bound
  unfold cfsBinheapPointer
  simp only [shiftRight_cbhShift, shiftRight_two_cbhShift, and_cbhMask, cbhSize_eq]
  split_ifs with single inside double inside'
  · -- the first run
    rw [laid.elements1, if_pos (by omega), Option.map_some, Nat.div_eq_of_lt single, Nat.mod_eq_of_lt single]
  · rw [laid.elements1, if_neg (by omega), Option.map_none]
  · -- the double-indirect part
    rw [laid.elements2, if_pos (by omega)]
    simp only [Option.bind_eq_bind, Option.bind_some]
    rw [laid.doubleTable (by omega), if_pos (by omega)]
    simp only [Cell.page?_page, Option.bind_some]
    have run : (i - 512) / 512 + 1 = i / 512 := by omega
    have offset : (i - 512) % 512 = i % 512 := by omega
    rw [run, offset]
    rfl
  · rw [laid.elements2]
    split_ifs with table
    · simp only [Option.bind_eq_bind, Option.bind_some]
      rw [laid.doubleTable table, if_neg (by omega)]
      rfl
    · rfl
  · -- the triple-indirect part
    rw [laid.elements3, if_pos (by omega)]
    simp only [Option.bind_eq_bind, Option.bind_some]
    rw [laid.tripleTable (by omega), if_pos (by omega)]
    simp only [Cell.page?_page, Option.bind_some]
    rw [laid.middleTable _ (by omega), if_pos (by omega)]
    simp only [Cell.page?_page, Option.bind_some]
    have run : 513 + 512 * ((i - 512 - 262144) / 262144) + (i - 512 - 262144) / 512 % 512 = i / 512 := by omega
    have offset : (i - 512 - 262144) % 512 = i % 512 := by omega
    rw [run, offset]
    rfl
  · rw [laid.elements3]
    split_ifs with table
    · simp only [Option.bind_eq_bind, Option.bind_some]
      rw [laid.tripleTable table]
      split_ifs with middle
      · simp only [Cell.page?_page, Option.bind_some]
        rw [laid.middleTable _ middle, if_neg (by omega)]
        rfl
      · rfl
    · rfl


/-! ## Stores into the leaf pages -/

theorem CfsBinheap.store_cbhPages_of_ne (h : CfsBinheap ι) {addr : Nat × Nat} (c : Cell ι) {p : Nat}
    (other : p ≠ addr.1) : (h.store addr c).cbhPages p = h.cbhPages p := by
  simp [store_cbhPages, Function.update_of_ne other]

@[simp] theorem CfsBinheap.runs_store (h : CfsBinheap ι) (addr : Nat × Nat) (c : Cell ι) :
    (h.store addr c).runs = h.runs := rfl

@[simp] theorem CfsBinheap.runs_raiseHwm (h : CfsBinheap ι) : h.raiseHwm.runs = h.runs + 1 := by
  simp only [runs_eq, raiseHwm, cbhSize_eq]
  omega

/-- The page of a run in use is no table of the heap. -/
theorem Layout.leaf_ne (laid : Layout h pageOf) {k : Nat} (inUse : k < h.runs) {r : PageRole}
    (rInUse : r.InUse h.runs) (table : r ≠ .leaf k) : pageOf r ≠ pageOf (.leaf k) :=
  fun same => table (laid.distinct _ _ rInUse inUse same)

/-- A store into the page of a run in use keeps the layout. -/
theorem Layout.store_leaf (laid : Layout h pageOf) {k : Nat} (inUse : k < h.runs) (j : Nat) (c : Cell ι) :
    Layout (h.store (pageOf (.leaf k), j) c) pageOf where
  aligned := laid.aligned
  bounded := laid.bounded
  elements1 := laid.elements1
  elements2 := laid.elements2
  elements3 := laid.elements3
  doubleTable used j' := by
    rw [read_store_of_page_ne _ _ (laid.leaf_ne inUse (show PageRole.double.InUse h.runs from used) (by simp)),
      runs_store]
    exact laid.doubleTable used j'
  tripleTable used q := by
    rw [read_store_of_page_ne _ _ (laid.leaf_ne inUse (show PageRole.triple.InUse h.runs from used) (by simp)),
      runs_store]
    exact laid.tripleTable used q
  middleTable q used s := by
    rw [read_store_of_page_ne _ _ (laid.leaf_ne inUse (show (PageRole.middle q).InUse h.runs from used) (by simp)),
      runs_store]
    exact laid.middleTable q used s
  distinct := laid.distinct
  allocated := laid.allocated
  fresh p after j' := by
    have leafBelow := laid.allocated (.leaf k) inUse
    rw [store_cbhPages_of_ne _ _ (show p ≠ pageOf (.leaf k) by simp only [store_cbhNext] at after; omega)]
    exact laid.fresh p after j'


/-! ## Growing -/

/-- The roles of one run more: those of the runs before, the page of the new
run, and the table or middle page the new run is the first of. -/
theorem PageRole.inUse_succ {runs : Nat} {a : PageRole} :
    a.InUse (runs + 1) ↔ a.InUse runs ∨ a = .leaf runs ∨ (a = .double ∧ runs = 1) ∨
      (a = .triple ∧ runs = 513) ∨ ∃ q, a = .middle q ∧ 513 + 512 * q = runs := by
  cases a <;> simp <;> omega

/-- Pages for the new roles, from `next` on and distinct, keep the pages of a
layout distinct. -/
theorem distinct_of_fresh {runs next : Nat} {pageOf pageOf' : PageRole → Nat}
    (distinct : ∀ a b, a.InUse runs → b.InUse runs → pageOf a = pageOf b → a = b)
    (allocated : ∀ a, a.InUse runs → pageOf a < next)
    (kept : ∀ a, a.InUse runs → pageOf' a = pageOf a)
    (fresh : ∀ a, a.InUse (runs + 1) → ¬ a.InUse runs → next ≤ pageOf' a)
    (freshDistinct : ∀ a b, a.InUse (runs + 1) → b.InUse (runs + 1) → ¬ a.InUse runs → ¬ b.InUse runs →
      pageOf' a = pageOf' b → a = b) :
    ∀ a b, a.InUse (runs + 1) → b.InUse (runs + 1) → pageOf' a = pageOf' b → a = b := by
  intro a b aInUse bInUse same
  by_cases aOld : a.InUse runs <;> by_cases bOld : b.InUse runs
  · rw [kept a aOld, kept b bOld] at same
    exact distinct a b aOld bOld same
  · have := allocated a aOld
    have := fresh b bInUse bOld
    rw [kept a aOld] at same
    omega
  · have := allocated b bOld
    have := fresh a aInUse aOld
    rw [kept b bOld] at same
    omega
  · exact freshDistinct a b aInUse bInUse aOld bOld same

/-- What a grow that succeeds leaves: a layout for one run more, with the
pages and cells of the runs before, and the other fields as they were. -/
structure Grown (h : CfsBinheap ι) (pageOf : PageRole → Nat) (h' : CfsBinheap ι) (pageOf' : PageRole → Nat) :
    Prop where
  laid : Layout h' pageOf'
  hwm : h'.cbhHwm = h.cbhHwm + cbhSize
  nelements : h'.cbhNelements = h.cbhNelements
  index : h'.chnIndex = h.chnIndex
  leaves : ∀ k, k < h.runs → pageOf' (.leaf k) = pageOf (.leaf k)
  cells : ∀ k, k < h.runs → ∀ j, h'.read (pageOf (.leaf k), j) = h.read (pageOf (.leaf k), j)

/-- A grow keeps a layout when it sets up the elements and the tables for one
run more, keeps the pages of the roles before, hands out distinct pages for
the new roles from `cbh_next` on, and leaves the pages of the runs before
and those after its `cbh_next` as they were. -/
theorem Layout.grown_of (laid : Layout h pageOf) {h' : CfsBinheap ι} {pageOf' : PageRole → Nat}
    (hwm' : h'.cbhHwm = h.cbhHwm + cbhSize)
    (bounded' : h'.cbhHwm ≤ cbhSize + cbhSize * cbhSize + cbhSize * cbhSize * cbhSize)
    (elements1 : h'.cbhElements1 = if 1 ≤ h'.runs then some (pageOf' (.leaf 0)) else none)
    (elements2 : h'.cbhElements2 = if 2 ≤ h'.runs then some (pageOf' .double) else none)
    (elements3 : h'.cbhElements3 = if 514 ≤ h'.runs then some (pageOf' .triple) else none)
    (doubleTable : 2 ≤ h'.runs → ∀ j, h'.read (pageOf' .double, j) =
      if j < 512 ∧ j + 1 < h'.runs then .page (pageOf' (.leaf (j + 1))) else .null)
    (tripleTable : 514 ≤ h'.runs → ∀ q, h'.read (pageOf' .triple, q) =
      if 513 + 512 * q < h'.runs then .page (pageOf' (.middle q)) else .null)
    (middleTable : ∀ q, 513 + 512 * q < h'.runs → ∀ s, h'.read (pageOf' (.middle q), s) =
      if s < 512 ∧ 513 + 512 * q + s < h'.runs then .page (pageOf' (.leaf (513 + 512 * q + s))) else .null)
    (kept : ∀ a, a.InUse h.runs → pageOf' a = pageOf a)
    (newPages : ∀ a, a.InUse (h.runs + 1) → ¬ a.InUse h.runs → h.cbhNext ≤ pageOf' a ∧ pageOf' a < h'.cbhNext)
    (newDistinct : ∀ a b, a.InUse (h.runs + 1) → b.InUse (h.runs + 1) → ¬ a.InUse h.runs → ¬ b.InUse h.runs →
      pageOf' a = pageOf' b → a = b)
    (nextLe : h.cbhNext ≤ h'.cbhNext) (pagesAbove : ∀ p, h'.cbhNext ≤ p → h'.cbhPages p = h.cbhPages p)
    (nelements' : h'.cbhNelements = h.cbhNelements) (index' : h'.chnIndex = h.chnIndex)
    (cells : ∀ k, k < h.runs → ∀ j, h'.read (pageOf (.leaf k), j) = h.read (pageOf (.leaf k), j)) :
    Grown h pageOf h' pageOf' := by
  have runs' : h'.runs = h.runs + 1 := by
    have := laid.aligned
    simp only [CfsBinheap.runs_eq, hwm', cbhSize_eq] at this ⊢
    omega
  refine ⟨⟨?aligned, bounded', elements1, elements2, elements3, doubleTable, tripleTable, middleTable, ?distinct,
    ?allocated, ?fresh⟩, hwm', nelements', index', fun k old => kept (.leaf k) old, cells⟩
  case aligned =>
    rw [hwm']
    have := laid.aligned
    simp only [cbhSize_eq] at this ⊢
    omega
  case distinct =>
    rw [runs']
    exact distinct_of_fresh laid.distinct laid.allocated kept (fun a inUse old => (newPages a inUse old).1) newDistinct
  case allocated =>
    rw [runs']
    intro a inUse
    by_cases old : a.InUse h.runs
    · rw [kept a old]
      have := laid.allocated a old
      omega
    · exact (newPages a inUse old).2
  case fresh =>
    intro p after j
    rw [pagesAbove p after]
    exact laid.fresh p (by omega) j

/-- A double-indirect grow past the first: the page of the new run goes into
`cbh_elements2`. -/
theorem Layout.growDoubleMore (laid : Layout h pageOf) (two : 2 ≤ h.runs) (top : h.runs ≤ 512) :
    Grown h pageOf (({ h with cbhNext := h.cbhNext + 1 } : CfsBinheap ι).store (pageOf .double, h.runs - 1)
      (.page h.cbhNext)).raiseHwm (Function.update pageOf (.leaf h.runs) h.cbhNext) := by
  have hwm := laid.hwm_eq
  set h' := (({ h with cbhNext := h.cbhNext + 1 } : CfsBinheap ι).store (pageOf .double, h.runs - 1)
      (.page h.cbhNext)).raiseHwm with h'Def
  -- what the grow changed; the heap it made is seen only through these
  have hwm' : h'.cbhHwm = h.cbhHwm + cbhSize := rfl
  have runs' : h'.runs = h.runs + 1 := runs_raiseHwm _
  have next' : h'.cbhNext = h.cbhNext + 1 := rfl
  have read' : ∀ a, a ≠ (pageOf .double, h.runs - 1) → h'.read a = h.read a := fun a other =>
    read_store_of_ne _ _ other
  have newCell : h'.read (pageOf .double, h.runs - 1) = .page h.cbhNext := read_store_self _ _ _
  have pages' : ∀ p, p ≠ pageOf .double → h'.cbhPages p = h.cbhPages p := fun p other =>
    store_cbhPages_of_ne _ _ other
  have elements' : h'.cbhElements1 = h.cbhElements1 ∧ h'.cbhElements2 = h.cbhElements2 ∧
      h'.cbhElements3 = h.cbhElements3 := ⟨rfl, rfl, rfl⟩
  have same : h'.cbhNelements = h.cbhNelements ∧ h'.chnIndex = h.chnIndex := ⟨rfl, rfl⟩
  clear_value h'
  have newRun : ∀ a : PageRole, a.InUse (h.runs + 1) → ¬ a.InUse h.runs → a = .leaf h.runs := by
    intro a inUse old
    rcases PageRole.inUse_succ.1 inUse with new | rfl | ⟨-, bad⟩ | ⟨-, bad⟩ | ⟨q, -, bad⟩
    · exact absurd new old
    · rfl
    all_goals omega
  have kept : ∀ a : PageRole, a.InUse h.runs → Function.update pageOf (.leaf h.runs) h.cbhNext a = pageOf a := by
    intro a old
    refine Function.update_of_ne ?_ _ _
    rintro rfl
    simp at old
  have tableBelow := laid.allocated .double two
  refine laid.grown_of hwm' ?_ ?_ ?_ ?_ ?_ ?_ ?_ kept ?_ ?_ (by rw [next']; omega) ?_ same.1 same.2 ?_
  · rw [hwm', hwm, cbhSize_eq]
    omega
  · rw [runs', if_pos (by omega), kept (.leaf 0) (show 0 < h.runs by omega), elements'.1, laid.elements1,
      if_pos (by omega)]
  · rw [runs', if_pos (by omega), kept .double two, elements'.2.1, laid.elements2, if_pos two]
  · rw [runs', if_neg (by omega), elements'.2.2, laid.elements3, if_neg (by omega)]
  · -- the new entry of `cbh_elements2` is the page of the new run
    intro _ j
    rw [runs', kept .double two]
    by_cases newEntry : j = h.runs - 1
    · rw [newEntry, newCell, if_pos (by omega), show h.runs - 1 + 1 = h.runs by omega, Function.update_self]
    · rw [read' _ (by simp [newEntry]), laid.doubleTable two j]
      by_cases listed : j < 512 ∧ j + 1 < h.runs
      · rw [if_pos listed, if_pos ⟨listed.1, by omega⟩, kept (.leaf (j + 1)) listed.2]
      · rw [if_neg listed, if_neg (by omega)]
  · rw [runs']
    omega
  · intro q used
    rw [runs'] at used
    omega
  · intro a inUse old
    rw [newRun a inUse old, Function.update_self]
    omega
  · intro a b aInUse bInUse aOld bOld _
    rw [newRun a aInUse aOld, newRun b bInUse bOld]
  · intro p after
    exact pages' p (by omega)
  · intro k old j
    have other := laid.leaf_ne old (show PageRole.double.InUse h.runs from two) (by simp)
    exact read' _ fun same => other (congrArg Prod.fst same).symm


theorem PageRole.ne_of_inUse {runs : Nat} {a r : PageRole} (inUse : a.InUse runs) (new : ¬ r.InUse runs) :
    a ≠ r := by
  rintro rfl
  exact new inUse

/-- The first grow: the page of run 0 in `cbh_elements1`. -/
theorem Layout.growSingle (laid : Layout h pageOf) (empty : h.runs = 0) :
    Grown h pageOf ({ h with cbhNext := h.cbhNext + 1, cbhElements1 := some h.cbhNext } : CfsBinheap ι).raiseHwm
      (Function.update pageOf (.leaf 0) h.cbhNext) := by
  have hwm := laid.hwm_eq
  set h' := ({ h with cbhNext := h.cbhNext + 1, cbhElements1 := some h.cbhNext } : CfsBinheap ι).raiseHwm
    with h'Def
  have hwm' : h'.cbhHwm = h.cbhHwm + cbhSize := rfl
  have runs' : h'.runs = h.runs + 1 := runs_raiseHwm _
  have next' : h'.cbhNext = h.cbhNext + 1 := rfl
  have elements' : h'.cbhElements1 = some h.cbhNext ∧ h'.cbhElements2 = h.cbhElements2 ∧
      h'.cbhElements3 = h.cbhElements3 := ⟨rfl, rfl, rfl⟩
  have pages' : h'.cbhPages = h.cbhPages := rfl
  have same : h'.cbhNelements = h.cbhNelements ∧ h'.chnIndex = h.chnIndex := ⟨rfl, rfl⟩
  clear_value h'
  have newRun : ∀ a : PageRole, a.InUse (h.runs + 1) → ¬ a.InUse h.runs → a = .leaf 0 := by
    intro a inUse old
    rcases PageRole.inUse_succ.1 inUse with new | rfl | ⟨-, bad⟩ | ⟨-, bad⟩ | ⟨q, -, bad⟩
    · exact absurd new old
    · rw [empty]
    all_goals omega
  have kept : ∀ a : PageRole, a.InUse h.runs → Function.update pageOf (.leaf 0) h.cbhNext a = pageOf a := by
    intro a old
    rw [empty] at old
    cases a <;> simp at old
  refine laid.grown_of hwm' ?_ ?_ ?_ ?_ ?_ ?_ ?_ kept ?_ ?_ (by rw [next']; omega) ?_ same.1 same.2 ?_
  · rw [hwm', hwm, empty, cbhSize_eq]
    omega
  · rw [runs', empty, if_pos le_rfl, elements'.1, Function.update_self]
  · rw [runs', empty, if_neg (by omega), elements'.2.1, laid.elements2, empty, if_neg (by omega)]
  · rw [runs', empty, if_neg (by omega), elements'.2.2, laid.elements3, empty, if_neg (by omega)]
  · rw [runs', empty]
    omega
  · rw [runs', empty]
    omega
  · intro q used
    rw [runs', empty] at used
    omega
  · intro a inUse old
    rw [newRun a inUse old, Function.update_self, next']
    omega
  · intro a b aInUse bInUse aOld bOld _
    rw [newRun a aInUse aOld, newRun b bInUse bOld]
  · intro p _
    rw [pages']
  · intro k old
    rw [empty] at old
    omega

/-- The first double-indirect grow: the page of run 1, and `cbh_elements2`
to list it. -/
theorem Layout.growDoubleFirst (laid : Layout h pageOf) (one : h.runs = 1) :
    Grown h pageOf (({ h with cbhNext := h.cbhNext + 1 + 1, cbhElements2 := some (h.cbhNext + 1) } :
      CfsBinheap ι).store (h.cbhNext + 1, 0) (.page h.cbhNext)).raiseHwm
      (Function.update (Function.update pageOf (.leaf 1) h.cbhNext) .double (h.cbhNext + 1)) := by
  have hwm := laid.hwm_eq
  set h' := (({ h with cbhNext := h.cbhNext + 1 + 1, cbhElements2 := some (h.cbhNext + 1) } :
      CfsBinheap ι).store (h.cbhNext + 1, 0) (.page h.cbhNext)).raiseHwm with h'Def
  have hwm' : h'.cbhHwm = h.cbhHwm + cbhSize := rfl
  have runs' : h'.runs = h.runs + 1 := runs_raiseHwm _
  have next' : h'.cbhNext = h.cbhNext + 2 := rfl
  have read' : ∀ a, a ≠ (h.cbhNext + 1, 0) → h'.read a = h.read a := fun a other => read_store_of_ne _ _ other
  have newCell : h'.read (h.cbhNext + 1, 0) = .page h.cbhNext := read_store_self _ _ _
  have pages' : ∀ p, p ≠ h.cbhNext + 1 → h'.cbhPages p = h.cbhPages p := fun p other =>
    store_cbhPages_of_ne _ _ other
  have elements' : h'.cbhElements1 = h.cbhElements1 ∧ h'.cbhElements2 = some (h.cbhNext + 1) ∧
      h'.cbhElements3 = h.cbhElements3 := ⟨rfl, rfl, rfl⟩
  have same : h'.cbhNelements = h.cbhNelements ∧ h'.chnIndex = h.chnIndex := ⟨rfl, rfl⟩
  clear_value h'
  set pageOf' := Function.update (Function.update pageOf (.leaf 1) h.cbhNext) .double (h.cbhNext + 1)
    with pageOf'Def
  have newRun : ∀ a : PageRole, a.InUse (h.runs + 1) → ¬ a.InUse h.runs → a = .leaf 1 ∨ a = .double := by
    intro a inUse old
    rcases PageRole.inUse_succ.1 inUse with new | rfl | ⟨rfl, -⟩ | ⟨-, bad⟩ | ⟨q, -, bad⟩
    · exact absurd new old
    · exact .inl (by rw [one])
    · exact .inr rfl
    all_goals omega
  have leafPage : pageOf' (.leaf 1) = h.cbhNext := by simp [pageOf'Def]
  have doublePage : pageOf' .double = h.cbhNext + 1 := by simp [pageOf'Def]
  have kept : ∀ a : PageRole, a.InUse h.runs → pageOf' a = pageOf a := by
    intro a old
    rw [pageOf'Def, Function.update_of_ne (PageRole.ne_of_inUse old (by simp [one])),
      Function.update_of_ne (PageRole.ne_of_inUse old (by simp [one]))]
  have leafZero : pageOf (.leaf 0) < h.cbhNext := laid.allocated (.leaf 0) (show 0 < h.runs by omega)
  refine laid.grown_of hwm' ?_ ?_ ?_ ?_ ?_ ?_ ?_ kept ?_ ?_ (by rw [next']; omega) ?_ same.1 same.2 ?_
  · rw [hwm', hwm, one, cbhSize_eq]
    omega
  · rw [runs', if_pos (by omega), kept (.leaf 0) (show 0 < h.runs by omega), elements'.1, laid.elements1,
      if_pos (by omega)]
  · rw [runs', one, if_pos le_rfl, elements'.2.1, doublePage]
  · rw [runs', one, if_neg (by omega), elements'.2.2, laid.elements3, one, if_neg (by omega)]
  · -- the new table lists the page of run 1 and nothing else
    intro _ j
    rw [runs', one, doublePage]
    by_cases first : j = 0
    · rw [first, newCell, if_pos (by omega), leafPage]
    · rw [read' _ (by simp [first]), if_neg (by omega)]
      exact laid.fresh _ (by omega) j
  · rw [runs', one]
    omega
  · intro q used
    rw [runs', one] at used
    omega
  · intro a inUse old
    rcases newRun a inUse old with rfl | rfl
    · rw [leafPage, next']
      omega
    · rw [doublePage, next']
      omega
  · intro a b aInUse bInUse aOld bOld same
    rcases newRun a aInUse aOld with rfl | rfl <;> rcases newRun b bInUse bOld with rfl | rfl
    · rfl
    · rw [leafPage, doublePage] at same
      omega
    · rw [doublePage, leafPage] at same
      omega
    · rfl
  · intro p after
    exact pages' p (by rw [next'] at after; omega)
  · intro k old j
    have leafBelow := laid.allocated (.leaf k) old
    exact read' _ fun same => by
      have := congrArg Prod.fst same
      simp only at this
      omega


/-- The first triple-indirect grow: the page of run 513, the middle page 0 to
list it, and `cbh_elements3` to list that. -/
theorem Layout.growTripleFirst (laid : Layout h pageOf) (first : h.runs = 513) :
    Grown h pageOf (((({ h with cbhNext := h.cbhNext + 1 + 1 + 1, cbhElements3 := some (h.cbhNext + 1 + 1) } :
      CfsBinheap ι).store (h.cbhNext + 1 + 1, 0) (.page (h.cbhNext + 1))).store (h.cbhNext + 1, 0)
      (.page h.cbhNext)).raiseHwm)
      (Function.update (Function.update (Function.update pageOf (.leaf 513) h.cbhNext) (.middle 0) (h.cbhNext + 1))
        .triple (h.cbhNext + 1 + 1)) := by
  have hwm := laid.hwm_eq
  set h' := ((({ h with cbhNext := h.cbhNext + 1 + 1 + 1, cbhElements3 := some (h.cbhNext + 1 + 1) } :
      CfsBinheap ι).store (h.cbhNext + 1 + 1, 0) (.page (h.cbhNext + 1))).store (h.cbhNext + 1, 0)
      (.page h.cbhNext)).raiseHwm with h'Def
  have hwm' : h'.cbhHwm = h.cbhHwm + cbhSize := rfl
  have runs' : h'.runs = h.runs + 1 := runs_raiseHwm _
  have next' : h'.cbhNext = h.cbhNext + 3 := rfl
  have read' : ∀ a, a.1 ≠ h.cbhNext + 1 → a.1 ≠ h.cbhNext + 2 → h'.read a = h.read a := fun a middle table => by
    rw [h'Def, read_raiseHwm, read_store_of_page_ne _ _ middle, read_store_of_page_ne _ _ table]
    rfl
  have middleCell : h'.read (h.cbhNext + 1, 0) = .page h.cbhNext := read_store_self _ _ _
  have middleOthers : ∀ j, j ≠ 0 → h'.read (h.cbhNext + 1, j) = h.read (h.cbhNext + 1, j) := fun j other => by
    rw [h'Def, read_raiseHwm, read_store_of_ne _ _ (by simp [other]), read_store_of_page_ne _ _ (by simp)]
    rfl
  have tableCell : h'.read (h.cbhNext + 2, 0) = .page (h.cbhNext + 1) := by
    rw [h'Def, read_raiseHwm, read_store_of_page_ne _ _ (by simp)]
    exact read_store_self _ _ _
  have tableOthers : ∀ q, q ≠ 0 → h'.read (h.cbhNext + 2, q) = h.read (h.cbhNext + 2, q) := fun q other => by
    rw [h'Def, read_raiseHwm, read_store_of_page_ne _ _ (by simp), read_store_of_ne _ _ (by simp [other])]
    rfl
  have pages' : ∀ p, p ≠ h.cbhNext + 1 → p ≠ h.cbhNext + 2 → h'.cbhPages p = h.cbhPages p := fun p middle table => by
    rw [h'Def, cbhPages_raiseHwm, store_cbhPages_of_ne _ _ middle, store_cbhPages_of_ne _ _ table]
  have elements' : h'.cbhElements1 = h.cbhElements1 ∧ h'.cbhElements2 = h.cbhElements2 ∧
      h'.cbhElements3 = some (h.cbhNext + 2) := ⟨rfl, rfl, rfl⟩
  have same : h'.cbhNelements = h.cbhNelements ∧ h'.chnIndex = h.chnIndex := ⟨rfl, rfl⟩
  clear_value h'
  set pageOf' := Function.update (Function.update (Function.update pageOf (.leaf 513) h.cbhNext) (.middle 0)
    (h.cbhNext + 1)) .triple (h.cbhNext + 1 + 1) with pageOf'Def
  have newRun : ∀ a : PageRole, a.InUse (h.runs + 1) → ¬ a.InUse h.runs →
      a = .leaf 513 ∨ a = .middle 0 ∨ a = .triple := by
    intro a inUse old
    rcases PageRole.inUse_succ.1 inUse with new | rfl | ⟨-, bad⟩ | ⟨rfl, -⟩ | ⟨q, rfl, atRun⟩
    · exact absurd new old
    · exact .inl (by rw [first])
    · omega
    · exact .inr (.inr rfl)
    · exact .inr (.inl (by rw [show q = 0 by omega]))
  have leafPage : pageOf' (.leaf 513) = h.cbhNext := by simp [pageOf'Def]
  have middlePage : pageOf' (.middle 0) = h.cbhNext + 1 := by simp [pageOf'Def]
  have triplePage : pageOf' .triple = h.cbhNext + 2 := by simp [pageOf'Def]
  have kept : ∀ a : PageRole, a.InUse h.runs → pageOf' a = pageOf a := by
    intro a old
    rw [pageOf'Def, Function.update_of_ne (PageRole.ne_of_inUse old (by simp [first])),
      Function.update_of_ne (PageRole.ne_of_inUse old (by simp [first])),
      Function.update_of_ne (PageRole.ne_of_inUse old (by simp [first]))]
  have oldBelow : ∀ a : PageRole, a.InUse h.runs → pageOf a < h.cbhNext := laid.allocated
  refine laid.grown_of hwm' ?_ ?_ ?_ ?_ ?_ ?_ ?_ kept ?_ ?_ (by rw [next']; omega) ?_ same.1 same.2 ?_
  · rw [hwm', hwm, first, cbhSize_eq]
    omega
  · rw [runs', if_pos (by omega), kept (.leaf 0) (show 0 < h.runs by omega), elements'.1, laid.elements1,
      if_pos (by omega)]
  · rw [runs', if_pos (by omega), kept .double (show 2 ≤ h.runs by omega), elements'.2.1, laid.elements2,
      if_pos (by omega)]
  · rw [runs', first, if_pos le_rfl, elements'.2.2, triplePage]
  · -- `cbh_elements2` lists the 512 runs it did
    intro _ j
    have doubleBelow := oldBelow .double (show 2 ≤ h.runs by omega)
    rw [runs', kept .double (show 2 ≤ h.runs by omega), read' _ (by simp only; omega) (by simp only; omega),
      laid.doubleTable (by omega) j]
    by_cases listed : j < 512
    · rw [if_pos ⟨listed, by omega⟩, if_pos ⟨listed, by omega⟩, kept (.leaf (j + 1)) (show j + 1 < h.runs by omega)]
    · rw [if_neg (by omega), if_neg (by omega)]
  · -- `cbh_elements3` lists the middle page 0 only
    intro _ q
    rw [runs', first, triplePage]
    by_cases zero : q = 0
    · rw [zero, tableCell, if_pos (by omega), middlePage]
    · rw [tableOthers q zero, if_neg (by omega)]
      exact laid.fresh _ (by omega) q
  · -- the middle page 0 lists the page of run 513 only
    intro q used s
    rw [runs', first] at used ⊢
    obtain rfl : q = 0 := by omega
    rw [middlePage]
    by_cases zero : s = 0
    · rw [zero, middleCell, if_pos (by omega), show 513 + 512 * 0 + 0 = 513 from rfl, leafPage]
    · rw [middleOthers s zero, if_neg (by omega)]
      exact laid.fresh _ (by omega) s
  · intro a inUse old
    rw [next']
    rcases newRun a inUse old with rfl | rfl | rfl
    · rw [leafPage]
      omega
    · rw [middlePage]
      omega
    · rw [triplePage]
      omega
  · intro a b aInUse bInUse aOld bOld same
    rcases newRun a aInUse aOld with rfl | rfl | rfl <;> rcases newRun b bInUse bOld with rfl | rfl | rfl
    all_goals simp only [leafPage, middlePage, triplePage] at same
    all_goals first | rfl | omega
  · intro p after
    rw [next'] at after
    exact pages' p (by omega) (by omega)
  · intro k old j
    have leafBelow := oldBelow (.leaf k) old
    exact read' _ (by simp only; omega) (by simp only; omega)

/-- A triple-indirect grow that starts a middle page: the page of the new
run, and a middle page listed in `cbh_elements3` to list it. -/
theorem Layout.growTripleNewMiddle (laid : Layout h pageOf) {q : Nat} (first : h.runs = 513 + 512 * q)
    (later : 1 ≤ q) (top : q < 512) :
    Grown h pageOf ((({ h with cbhNext := h.cbhNext + 1 + 1 } : CfsBinheap ι).store (pageOf .triple, q)
      (.page (h.cbhNext + 1))).store (h.cbhNext + 1, 0) (.page h.cbhNext)).raiseHwm
      (Function.update (Function.update pageOf (.leaf h.runs) h.cbhNext) (.middle q) (h.cbhNext + 1)) := by
  have hwm := laid.hwm_eq
  have tripleInUse : PageRole.triple.InUse h.runs := show 514 ≤ h.runs by omega
  have tripleBelow := laid.allocated _ tripleInUse
  set h' := ((({ h with cbhNext := h.cbhNext + 1 + 1 } : CfsBinheap ι).store (pageOf .triple, q)
      (.page (h.cbhNext + 1))).store (h.cbhNext + 1, 0) (.page h.cbhNext)).raiseHwm with h'Def
  have hwm' : h'.cbhHwm = h.cbhHwm + cbhSize := rfl
  have runs' : h'.runs = h.runs + 1 := runs_raiseHwm _
  have next' : h'.cbhNext = h.cbhNext + 2 := rfl
  have read' : ∀ a, a.1 ≠ h.cbhNext + 1 → a ≠ (pageOf .triple, q) → h'.read a = h.read a := fun a middle entry => by
    rw [h'Def, read_raiseHwm, read_store_of_page_ne _ _ middle, read_store_of_ne _ _ entry]
    rfl
  have middleCell : h'.read (h.cbhNext + 1, 0) = .page h.cbhNext := read_store_self _ _ _
  have middleOthers : ∀ j, j ≠ 0 → h'.read (h.cbhNext + 1, j) = h.read (h.cbhNext + 1, j) := fun j other => by
    rw [h'Def, read_raiseHwm, read_store_of_ne _ _ (by simp [other]), read_store_of_page_ne _ _ (by simp only; omega)]
    rfl
  have tableCell : h'.read (pageOf .triple, q) = .page (h.cbhNext + 1) := by
    rw [h'Def, read_raiseHwm, read_store_of_page_ne _ _ (by simp only; omega)]
    exact read_store_self _ _ _
  have pages' : ∀ p, p ≠ h.cbhNext + 1 → p ≠ pageOf .triple → h'.cbhPages p = h.cbhPages p := fun p middle table => by
    rw [h'Def, cbhPages_raiseHwm, store_cbhPages_of_ne _ _ middle, store_cbhPages_of_ne _ _ table]
  have elements' : h'.cbhElements1 = h.cbhElements1 ∧ h'.cbhElements2 = h.cbhElements2 ∧
      h'.cbhElements3 = h.cbhElements3 := ⟨rfl, rfl, rfl⟩
  have same : h'.cbhNelements = h.cbhNelements ∧ h'.chnIndex = h.chnIndex := ⟨rfl, rfl⟩
  clear_value h'
  set pageOf' := Function.update (Function.update pageOf (.leaf h.runs) h.cbhNext) (.middle q) (h.cbhNext + 1)
    with pageOf'Def
  have newRun : ∀ a : PageRole, a.InUse (h.runs + 1) → ¬ a.InUse h.runs → a = .leaf h.runs ∨ a = .middle q := by
    intro a inUse old
    rcases PageRole.inUse_succ.1 inUse with new | rfl | ⟨-, bad⟩ | ⟨-, bad⟩ | ⟨q', rfl, atRun⟩
    · exact absurd new old
    · exact .inl rfl
    · omega
    · omega
    · exact .inr (by rw [show q' = q by omega])
  have leafPage : pageOf' (.leaf h.runs) = h.cbhNext := by simp [pageOf'Def]
  have middlePage : pageOf' (.middle q) = h.cbhNext + 1 := by simp [pageOf'Def]
  have kept : ∀ a : PageRole, a.InUse h.runs → pageOf' a = pageOf a := by
    intro a old
    rw [pageOf'Def, Function.update_of_ne (PageRole.ne_of_inUse old (by simp [first])),
      Function.update_of_ne (PageRole.ne_of_inUse old (by simp))]
  have oldBelow : ∀ a : PageRole, a.InUse h.runs → pageOf a < h.cbhNext := laid.allocated
  -- an old page is no new page, and the table is no other old page
  have oldPage : ∀ a : PageRole, a.InUse h.runs → ∀ j, h'.read (pageOf a, j) =
      if a = .triple ∧ j = q then .page (h.cbhNext + 1) else h.read (pageOf a, j) := by
    intro a old j
    by_cases entry : a = .triple ∧ j = q
    · rw [if_pos entry, entry.1, entry.2, tableCell]
    · rw [if_neg entry]
      have below := oldBelow a old
      refine read' _ (by simp only; omega) fun same => entry ?_
      have pageSame := congrArg Prod.fst same
      simp only at pageSame
      exact ⟨laid.distinct _ _ old tripleInUse pageSame, congrArg Prod.snd same⟩
  refine laid.grown_of hwm' ?_ ?_ ?_ ?_ ?_ ?_ ?_ kept ?_ ?_ (by rw [next']; omega) ?_ same.1 same.2 ?_
  · rw [hwm', hwm, first, cbhSize_eq]
    omega
  · rw [runs', if_pos (by omega), kept (.leaf 0) (show 0 < h.runs by omega), elements'.1, laid.elements1,
      if_pos (by omega)]
  · rw [runs', if_pos (by omega), kept .double (show 2 ≤ h.runs by omega), elements'.2.1, laid.elements2,
      if_pos (by omega)]
  · rw [runs', if_pos (by omega), kept .triple tripleInUse, elements'.2.2, laid.elements3, if_pos (show 514 ≤ h.runs by omega)]
  · intro _ j
    rw [runs', kept .double (show 2 ≤ h.runs by omega), oldPage .double (show 2 ≤ h.runs by omega), if_neg (by simp),
      laid.doubleTable (by omega) j]
    by_cases listed : j < 512
    · rw [if_pos ⟨listed, by omega⟩, if_pos ⟨listed, by omega⟩, kept (.leaf (j + 1)) (show j + 1 < h.runs by omega)]
    · rw [if_neg (by omega), if_neg (by omega)]
  · -- `cbh_elements3` lists the new middle page
    intro _ q'
    rw [runs', kept .triple tripleInUse, oldPage .triple tripleInUse]
    by_cases new : q' = q
    · rw [if_pos ⟨rfl, new⟩, new, if_pos (by omega), middlePage]
    · rw [if_neg (by simp [new]), laid.tripleTable tripleInUse q']
      by_cases listed : 513 + 512 * q' < h.runs
      · rw [if_pos listed, if_pos (by omega), kept (.middle q') listed]
      · rw [if_neg listed, if_neg (by omega)]
  · intro q' used s
    rw [runs'] at used ⊢
    by_cases new : q' = q
    · -- the new middle page lists the page of the new run only
      subst new
      rw [middlePage]
      by_cases zero : s = 0
      · rw [zero, middleCell, if_pos (by omega), show 513 + 512 * q' + 0 = h.runs by omega, leafPage]
      · rw [middleOthers s zero, if_neg (by omega)]
        exact laid.fresh _ (by omega) s
    · have old : (PageRole.middle q').InUse h.runs := show 513 + 512 * q' < h.runs by omega
      rw [kept _ old, oldPage _ old, if_neg (by simp), laid.middleTable q' old s]
      by_cases listed : s < 512 ∧ 513 + 512 * q' + s < h.runs
      · rw [if_pos listed, if_pos ⟨listed.1, by omega⟩, kept (.leaf _) listed.2]
      · rw [if_neg listed, if_neg (by omega)]
  · intro a inUse old
    rw [next']
    rcases newRun a inUse old with rfl | rfl
    · rw [leafPage]
      omega
    · rw [middlePage]
      omega
  · intro a b aInUse bInUse aOld bOld same
    rcases newRun a aInUse aOld with rfl | rfl <;> rcases newRun b bInUse bOld with rfl | rfl
    all_goals simp only [leafPage, middlePage] at same
    all_goals first | rfl | omega
  · intro p after
    rw [next'] at after
    exact pages' p (by omega) (by omega)
  · intro k old j
    rw [oldPage (.leaf k) old, if_neg (by simp)]

/-- A triple-indirect grow into a middle page in use: the page of the new run
goes into it. -/
theorem Layout.growTripleMore (laid : Layout h pageOf) {q s : Nat} (atRun : h.runs = 513 + 512 * q + s)
    (later : 1 ≤ s) (inPage : s < 512) :
    Grown h pageOf (({ h with cbhNext := h.cbhNext + 1 } : CfsBinheap ι).store (pageOf (.middle q), s)
      (.page h.cbhNext)).raiseHwm (Function.update pageOf (.leaf h.runs) h.cbhNext) := by
  have hwm := laid.hwm_eq
  have middleInUse : (PageRole.middle q).InUse h.runs := show 513 + 512 * q < h.runs by omega
  set h' := (({ h with cbhNext := h.cbhNext + 1 } : CfsBinheap ι).store (pageOf (.middle q), s)
      (.page h.cbhNext)).raiseHwm with h'Def
  have hwm' : h'.cbhHwm = h.cbhHwm + cbhSize := rfl
  have runs' : h'.runs = h.runs + 1 := runs_raiseHwm _
  have next' : h'.cbhNext = h.cbhNext + 1 := rfl
  have read' : ∀ a, a ≠ (pageOf (.middle q), s) → h'.read a = h.read a := fun a other => read_store_of_ne _ _ other
  have newCell : h'.read (pageOf (.middle q), s) = .page h.cbhNext := read_store_self _ _ _
  have pages' : ∀ p, p ≠ pageOf (.middle q) → h'.cbhPages p = h.cbhPages p := fun p other =>
    store_cbhPages_of_ne _ _ other
  have elements' : h'.cbhElements1 = h.cbhElements1 ∧ h'.cbhElements2 = h.cbhElements2 ∧
      h'.cbhElements3 = h.cbhElements3 := ⟨rfl, rfl, rfl⟩
  have same : h'.cbhNelements = h.cbhNelements ∧ h'.chnIndex = h.chnIndex := ⟨rfl, rfl⟩
  clear_value h'
  have newRun : ∀ a : PageRole, a.InUse (h.runs + 1) → ¬ a.InUse h.runs → a = .leaf h.runs := by
    intro a inUse old
    rcases PageRole.inUse_succ.1 inUse with new | rfl | ⟨-, bad⟩ | ⟨-, bad⟩ | ⟨q', -, bad⟩
    · exact absurd new old
    · rfl
    all_goals omega
  have kept : ∀ a : PageRole, a.InUse h.runs → Function.update pageOf (.leaf h.runs) h.cbhNext a = pageOf a :=
    fun a old => Function.update_of_ne (PageRole.ne_of_inUse old (by simp)) _ _
  have oldBelow : ∀ a : PageRole, a.InUse h.runs → pageOf a < h.cbhNext := laid.allocated
  -- the one cell the grow wrote is entry `s` of the middle page `q`
  have oldPage : ∀ a : PageRole, a.InUse h.runs → ∀ j, h'.read (pageOf a, j) =
      if a = .middle q ∧ j = s then .page h.cbhNext else h.read (pageOf a, j) := by
    intro a old j
    by_cases entry : a = .middle q ∧ j = s
    · rw [if_pos entry, entry.1, entry.2, newCell]
    · rw [if_neg entry]
      refine read' _ fun same => entry ?_
      have pageSame := congrArg Prod.fst same
      simp only at pageSame
      exact ⟨laid.distinct _ _ old middleInUse pageSame, congrArg Prod.snd same⟩
  refine laid.grown_of hwm' ?_ ?_ ?_ ?_ ?_ ?_ ?_ kept ?_ ?_ (by rw [next']; omega) ?_ same.1 same.2 ?_
  · rw [hwm', hwm, cbhSize_eq]
    have := laid.bounded
    simp only [cbhSize_eq] at this
    omega
  · rw [runs', if_pos (by omega), kept (.leaf 0) (show 0 < h.runs by omega), elements'.1, laid.elements1,
      if_pos (by omega)]
  · rw [runs', if_pos (by omega), kept .double (show 2 ≤ h.runs by omega), elements'.2.1, laid.elements2,
      if_pos (by omega)]
  · rw [runs', if_pos (by omega), kept .triple (show 514 ≤ h.runs by omega), elements'.2.2, laid.elements3,
      if_pos (by omega)]
  · intro _ j
    rw [runs', kept .double (show 2 ≤ h.runs by omega), oldPage .double (show 2 ≤ h.runs by omega), if_neg (by simp),
      laid.doubleTable (by omega) j]
    by_cases listed : j < 512
    · rw [if_pos ⟨listed, by omega⟩, if_pos ⟨listed, by omega⟩, kept (.leaf (j + 1)) (show j + 1 < h.runs by omega)]
    · rw [if_neg (by omega), if_neg (by omega)]
  · intro _ q'
    have tripleInUse : PageRole.triple.InUse h.runs := show 514 ≤ h.runs by omega
    rw [runs', kept .triple tripleInUse, oldPage .triple tripleInUse, if_neg (by simp),
      laid.tripleTable tripleInUse q']
    by_cases listed : 513 + 512 * q' < h.runs
    · rw [if_pos listed, if_pos (by omega), kept (.middle q') listed]
    · rw [if_neg listed, if_neg (by omega)]
  · intro q' used s'
    rw [runs'] at used ⊢
    have old : (PageRole.middle q').InUse h.runs := show 513 + 512 * q' < h.runs by omega
    rw [kept _ old, oldPage _ old]
    by_cases entry : PageRole.middle q' = .middle q ∧ s' = s
    · -- the new entry lists the page of the new run
      obtain ⟨sameMiddle, rfl⟩ := entry
      obtain rfl : q' = q := by injection sameMiddle
      rw [if_pos ⟨rfl, rfl⟩, if_pos ⟨inPage, by omega⟩, show 513 + 512 * q' + s' = h.runs by omega,
        Function.update_self]
    · rw [if_neg entry, laid.middleTable q' old s']
      by_cases small : s' < 512
      · have notNew : ¬ 513 + 512 * q' + s' = h.runs := fun atNew =>
          entry ⟨by rw [show q' = q by omega], by omega⟩
        by_cases listed : 513 + 512 * q' + s' < h.runs
        · rw [if_pos ⟨small, listed⟩, if_pos ⟨small, by omega⟩, kept (.leaf _) listed]
        · rw [if_neg (by omega), if_neg (by omega)]
      · rw [if_neg (by omega), if_neg (by omega)]
  · intro a inUse old
    rw [newRun a inUse old, Function.update_self, next']
    omega
  · intro a b aInUse bInUse aOld bOld _
    rw [newRun a aInUse aOld, newRun b bInUse bOld]
  · intro p after
    rw [next'] at after
    exact pages' p (by have := oldBelow _ middleInUse; omega)
  · intro k old j
    rw [oldPage (.leaf k) old, if_neg (by simp)]


/-- The double-indirect part of a grow under a layout fails with `-ENOMEM`
and the heap as it was, or adds the pages of one run more. -/
theorem Layout.growDouble_cases (laid : Layout h pageOf) (one : 1 ≤ h.runs) (top : h.runs ≤ 512)
    (oom : List Bool) :
    growDouble h (h.cbhHwm - cbhSize) oom = some (-enomem, h) ∨
      ∃ h' pageOf', growDouble h (h.cbhHwm - cbhSize) oom = some (0, h') ∧ Grown h pageOf h' pageOf' := by
  have hwm := laid.hwm_eq
  have entry : (h.cbhHwm - cbhSize) >>> cbhShift = h.runs - 1 := by
    rw [shiftRight_cbhShift, hwm, cbhSize_eq]
    omega
  unfold growDouble
  cases oom.getD 0 false
  · simp only [cbhAlloc_false]
    by_cases first : h.runs = 1
    · -- first use of double indirect
      rw [if_pos (by rw [hwm, cbhSize_eq]; omega)]
      cases oom.getD 1 false
      · simp only [cbhAlloc_false, Option.map_some]
        rw [entry, first]
        exact .inr ⟨_, _, rfl, laid.growDoubleFirst first⟩
      · simp [cbhAlloc_true]
    · rw [if_neg (by rw [hwm, cbhSize_eq]; omega)]
      have table := laid.elements2
      rw [if_pos (by omega)] at table
      refine .inr ⟨_, _, ?_, laid.growDoubleMore (by omega) top⟩
      simp only [table, entry]
  · simp [cbhAlloc_true]

/-- The triple-indirect part of a grow from the start `start` of the new run
inside the triple-indirect range. The start is a variable here: the kernel takes
a literal off a variable one unit at a time, so `cbh_hwm - CBH_SIZE - CBH_SIZE²`
must not reach it unevaluated. -/
theorem Layout.growTriple_cases_of_start (laid : Layout h pageOf) (past : 513 ≤ h.runs) (oom : List Bool)
    (start : Nat) (base : start = 512 * (h.runs - 513)) :
    growTriple h start oom = some (-enomem, h) ∨
      ∃ h' pageOf', growTriple h start oom = some (0, h') ∧ Grown h pageOf h' pageOf' := by
  have middleIndex : start >>> (2 * cbhShift) = (h.runs - 513) / 512 := by
    rw [shiftRight_two_cbhShift, base, cbhSize_eq]
    omega
  have middleEntry : start >>> cbhShift &&& cbhMask = (h.runs - 513) % 512 := by
    rw [and_cbhMask, shiftRight_cbhShift, base, cbhSize_eq]
    omega
  unfold growTriple
  by_cases full : start ≥ cbhSize * cbhSize * cbhSize
  · exact .inl (if_pos full)
  rw [if_neg full]
  have top : h.runs - 513 < 512 * 512 := by
    rw [base, cbhSize_eq] at full
    omega
  -- each allocation is unfolded where the run reaches it
  cases oom.getD 0 false
  · rw [cbhAlloc_false]
    dsimp only
    rw [middleEntry]
    by_cases newMiddle : (h.runs - 513) % 512 = 0
    · rw [if_pos newMiddle]
      cases oom.getD 1 false
      · rw [cbhAlloc_false, Option.map_some]
        dsimp only
        by_cases first : h.runs = 513
        · -- first use of triple indirect
          rw [if_pos (by rw [base, first])]
          cases oom.getD 2 false
          · rw [cbhAlloc_false, Option.map_some]
            dsimp only
            have fresh : h.cbhPages (h.cbhNext + 1 + 1) 0 = .null := laid.fresh _ (by omega) 0
            rw [middleIndex, first, show (513 - 513) / 512 = 0 from rfl, show (513 - 513) % 512 = 0 from rfl]
            refine .inr ⟨_, _, ?_, laid.growTripleFirst first⟩
            simp only [CfsBinheap.read, fresh]
          · rw [cbhAlloc_true]
            exact .inl rfl
        · rw [if_neg (by rw [base]; omega)]
          dsimp only
          have table := laid.elements3
          rw [if_pos (by omega)] at table
          -- the entry of `cbh_elements3` for the new middle page is NULL
          have empty := laid.tripleTable (by omega) ((h.runs - 513) / 512)
          rw [if_neg (by omega)] at empty
          simp only [CfsBinheap.read] at empty
          rw [middleIndex, newMiddle]
          refine .inr ⟨_, _, ?_, laid.growTripleNewMiddle
            (show h.runs = 513 + 512 * ((h.runs - 513) / 512) by omega) (by omega) (by omega)⟩
          simp only [table, CfsBinheap.read, empty]
      · rw [cbhAlloc_true]
        exact .inl rfl
    · rw [if_neg newMiddle]
      dsimp only
      rw [if_neg (by rw [base]; omega)]
      dsimp only
      have table := laid.elements3
      rw [if_pos (by omega)] at table
      -- the middle page of the new run is listed already
      have listed := laid.tripleTable (by omega) ((h.runs - 513) / 512)
      rw [if_pos (by omega)] at listed
      simp only [CfsBinheap.read] at listed
      rw [middleIndex]
      refine .inr ⟨_, _, ?_, laid.growTripleMore
        (show h.runs = 513 + 512 * ((h.runs - 513) / 512) + (h.runs - 513) % 512 by omega) (by omega) (by omega)⟩
      simp only [table, CfsBinheap.read, listed, Cell.page?_page]
  · rw [cbhAlloc_true]
    exact .inl rfl

/-- The triple-indirect part of a grow under a layout fails with `-ENOMEM`
and the heap as it was, or adds the pages of one run more. -/
theorem Layout.growTriple_cases (laid : Layout h pageOf) (past : 513 ≤ h.runs) (oom : List Bool) :
    growTriple h (h.cbhHwm - cbhSize - cbhSize * cbhSize) oom = some (-enomem, h) ∨
      ∃ h' pageOf', growTriple h (h.cbhHwm - cbhSize - cbhSize * cbhSize) oom = some (0, h') ∧
        Grown h pageOf h' pageOf' := by
  refine laid.growTriple_cases_of_start past oom _ ?_
  rw [laid.hwm_eq, cbhSize_eq]
  omega

/-- `cfs_binheap_grow` under a layout fails with `-ENOMEM` and the heap as it
was, or adds the pages of one run more. -/
theorem Layout.cfsBinheapGrow_cases (laid : Layout h pageOf) (oom : List Bool) :
    cfsBinheapGrow h oom = some (-enomem, h) ∨
      ∃ h' pageOf', cfsBinheapGrow h oom = some (0, h') ∧ Grown h pageOf h' pageOf' := by
  have hwm := laid.hwm_eq
  have bound := laid.bounded
  simp only [cbhSize_eq] at bound
  unfold cfsBinheapGrow
  rw [if_neg (by rw [and_cbhMask]; exact not_not.2 laid.aligned)]
  by_cases empty : h.cbhHwm = 0
  · -- first use of single indirect
    rw [if_pos empty]
    cases oom.getD 0 false
    · rw [cbhAlloc_false]
      exact .inr ⟨_, _, rfl, laid.growSingle (by omega)⟩
    · rw [cbhAlloc_true]
      exact .inl rfl
  rw [if_neg empty]
  by_cases double : h.cbhHwm - cbhSize < cbhSize * cbhSize
  · rw [if_pos double]
    exact laid.growDouble_cases (by omega) (by rw [cbhSize_eq] at double; omega) oom
  · rw [if_neg double]
    exact laid.growTriple_cases (by rw [cbhSize_eq] at double; omega) oom

end Libcfs
end Lustre
