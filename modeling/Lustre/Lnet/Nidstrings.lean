import Mathlib
import Lustre.Libcfs.LibcfsString

/-!
# NID lists

`nidstrings.c` compiles a list of NID ranges such as
`192.168.[1-3].* 5@gni *@o2ib1` into nidranges, one for each network the items
name, and matches NIDs against it (`cfs_match_nid`), prints it back
(`cfs_print_nidlist`), tells whether it is one contiguous range of addresses
(`cfs_nidrange_is_contiguous`) and reports the lowest and the highest NID of
such a range (`cfs_nidrange_find_min_max`).  The nodemap code stores the NID
ranges of a nodemap with the last two.

```
<nidlist>     :== <nidrange> [ ' ' <nidrange> ]
<nidrange>    :== <addrrange> '@' <net>
<addrrange>   :== '*' | <ipaddr_range> | <cfs_expr_list>
<ipaddr_range>:== <cfs_expr_list>.<cfs_expr_list>.<cfs_expr_list>.<cfs_expr_list>
```

Each network has its entry in `libcfs_netstrfns`, whose functions read and
print the addresses: IPv4 addresses as four octet lists, or plain numbers.
Items of one network share one nidrange (`add_nidrange`), so that `*@tcp` and
`1.2.3.4@tcp` give a nidrange that matches all of `tcp` and also holds an
address range; the printer asserts that a nidrange of `*` holds none.

The module proves what a parsed list looks like (`WellFormed`: four octet
lists of an IP network, one list of a numeric one, none empty, one nidrange
for each network), that on such lists the printer fails exactly at a nidrange
that is `*` and has address ranges, and what `cfs_match_nid` decides when no
range has stride zero.  `cfs_num_min_max` stores the low end of a range as
the highest address, so the interval it reports for `[5-10]@gni` is `[5, 5]`.
-/

namespace Lustre
namespace Lnet

open Libcfs

/-! ## Networks -/

/-- `SOCKLND` of `enum lnet_lnd_type`. -/
def socklnd : UInt32 := 2
/-- `O2IBLND`. -/
def o2iblnd : UInt32 := 5
/-- `LOLND`. -/
def lolnd : UInt32 := 9
/-- `GNILND`. -/
def gnilnd : UInt32 := 13
/-- `GNIIPLND`. -/
def gniiplnd : UInt32 := 14

/-- `LNET_NIDSTR_SIZE`. -/
def lnetNidstrSize : Nat := 32

/-- `MAX_NUMERIC_VALUE`. -/
def maxNumericValue : UInt32 := 0xffffffff

/-- The entries of `libcfs_netstrfns`. -/
inductive Netstrfns
  | lo
  | tcp
  | o2ib
  | gni
  | gip
  deriving DecidableEq, Repr

/-- `libcfs_netstrfns`, in its order. -/
def libcfsNetstrfns : List Netstrfns := [.lo, .tcp, .o2ib, .gni, .gip]

namespace Netstrfns

/-- `nf_type`. -/
def nfType : Netstrfns → UInt32
  | lo => lolnd
  | tcp => socklnd
  | o2ib => o2iblnd
  | gni => gnilnd
  | gip => gniiplnd

/-- `nf_name`. -/
def nfName : Netstrfns → List Char
  | lo => ['l', 'o']
  | tcp => ['t', 'c', 'p']
  | o2ib => ['o', '2', 'i', 'b']
  | gni => ['g', 'n', 'i']
  | gip => ['g', 'i', 'p']

/-- Whether the entry's address functions are those of IPv4 addresses
(`cfs_ip_addr_parse`, `libcfs_ip_addr_range_print`, `cfs_ip_addr_match`,
`cfs_ip_is_contiguous`, `cfs_ip_min_max`, `libcfs_ip_addr2str`) or those of
numbers (`libcfs_num_parse`, `libcfs_num_addr_range_print`,
`libcfs_num_match`, `cfs_num_is_contiguous`, `cfs_num_min_max`,
`libcfs_decnum_addr2str`). -/
def isIp : Netstrfns → Bool
  | lo => false
  | tcp => true
  | o2ib => true
  | gni => false
  | gip => true

end Netstrfns

/-- `libcfs_namenum2netstrfns(name)`: the first entry whose name begins `name`. -/
def libcfsNamenum2netstrfns (name : List Char) : Option Netstrfns :=
  libcfsNetstrfns.find? fun nf => nf.nfName.isPrefixOf name

/-! ## NIDs -/

/-- `LNET_NIDADDR`. -/
def lnetNidaddr (nid : UInt64) : UInt32 := (nid &&& 0xffffffff).toUInt32

/-- `LNET_NIDNET`. -/
def lnetNidnet (nid : UInt64) : UInt32 := ((nid >>> 32) &&& 0xffffffff).toUInt32

/-- `LNET_MKNID`. -/
def lnetMknid (net addr : UInt32) : UInt64 := (net.toUInt64 <<< 32) ||| addr.toUInt64

/-- `LNET_NETNUM`. -/
def lnetNetnum (net : UInt32) : UInt32 := net &&& 0xffff

/-- `LNET_NETTYP`. -/
def lnetNettyp (net : UInt32) : UInt32 := (net >>> 16) &&& 0xffff

/-- `LNET_MKNET`. -/
def lnetMknet (type num : UInt32) : UInt32 := (type <<< 16) ||| num

/-! ## Compiled lists -/

/-- `struct addrrange`: the expression lists of one address range, four
octets for an IP network and one for a numeric one. -/
structure Addrrange where
  arNumaddrRanges : List CfsExprList
  deriving DecidableEq, Repr

/-- `struct nidrange`: the address ranges of one network, and `nr_all` for
`*`.  `nr_netnum` is an `int` that holds the bits of the parsed `unsigned`. -/
structure Nidrange where
  nrAddrranges : List Addrrange
  nrAll : Bool
  nrNetstrfns : Netstrfns
  nrNetnum : UInt32
  deriving DecidableEq, Repr

/-! ## Parsing -/

/-- `cfs_ip_addr_parse(str, len, list)`: octet lists in `[0, 255]` separated by
'.', of which there must be four. -/
def cfsIpAddrParse (str : List Char) (len : Nat) : Option (Except Int (List CfsExprList)) :=
  let parsed := gettokLoop '.'
    (fun els res => do
      let octet ← res.lsStr
      (cfsExprListParse octet res.lsLen 0 255).map fun
        | .ok el => some (els ++ [el])
        | .error _ => none)
    ⟨some str, len⟩ []
  parsed.map fun
    | some els => if els.length = 4 then .ok els else .error (-einval)
    | none => .error (-einval)

/-- `libcfs_num_parse(str, len, list)`: one expression list of numbers. -/
def libcfsNumParse (str : List Char) (len : Nat) : Option (Except Int (List CfsExprList)) :=
  (cfsExprListParse str len 0 maxNumericValue).map fun parsed => parsed.map fun el => [el]

/-- `nf_parse_addrlist`. -/
def Netstrfns.nfParseAddrlist (nf : Netstrfns) (str : List Char) (len : Nat) :
    Option (Except Int (List CfsExprList)) :=
  if nf.isIp then cfsIpAddrParse str len else libcfsNumParse str len

/-- `parse_addrange(src, nidrange)`: `*` sets `nr_all`; anything else is an
address range of the network. -/
def parseAddrange (src : CfsLstr) (nidrange : Nidrange) : Option (Except Int Nidrange) := do
  let str ← src.lsStr
  if src.lsLen = 1 ∧ str.head? = some '*' then some (.ok { nidrange with nrAll := true })
  else
    let parsed ← nidrange.nrNetstrfns.nfParseAddrlist str src.lsLen
    some (parsed.map fun list => { nidrange with nrAddrranges := nidrange.nrAddrranges ++ [⟨list⟩] })

/-- Whether a nidrange is the one of entry `nf` and network number `netnum`. -/
def Nidrange.isNet (nf : Netstrfns) (netnum : UInt32) (nr : Nidrange) : Bool :=
  nr.nrNetstrfns == nf && nr.nrNetnum == netnum

/-- The network number of `add_nidrange`: 0 after a bare name such as "tcp",
the number after it in "tcp23", and `none` for anything else. -/
def nameNetnum (name : List Char) (len : Nat) (nf : Netstrfns) : Option UInt32 :=
  let endlen : Int := len - nf.nfName.length
  if endlen = 0 then some 0
  else
    let (parsed, netnum) := cfsStr2numCheck (name.drop nf.nfName.length) endlen.toNat 0 maxNumericValue
    if parsed then some netnum else none

/-- The search of `add_nidrange`: the nidranges before the one of the network,
that one, and those after it; a new empty one after all of them when the list
has none. -/
def findNidrange (nf : Netstrfns) (netnum : UInt32) :
    List Nidrange → List Nidrange × Nidrange × List Nidrange
  | [] => ([], ⟨[], false, nf, netnum⟩, [])
  | nr :: nidlist =>
    if nr.isNet nf netnum then ([], nr, nidlist)
    else
      let (before, found, after) := findNidrange nf netnum nidlist
      (nr :: before, found, after)

/-- `add_nidrange(src, nidlist)`: the nidrange of the network that `name` (of
length `len`) names, with the list around it; `none` is the NULL of a name
that is too long, names no network, or has anything but a number after the
name. -/
def addNidrange (name : List Char) (len : Nat) (nidlist : List Nidrange) :
    Option (List Nidrange × Nidrange × List Nidrange) :=
  if len ≥ lnetNidstrSize then none
  else do
    let nf ← libcfsNamenum2netstrfns name
    let netnum ← nameNetnum name len nf
    return findNidrange nf netnum nidlist

/-- `parse_nidrange(src, nidlist)`: `<addrrange>@<net>`, added to the nidrange
of the network; `some none` for the 0 it returns on a failure. -/
def parseNidrange (src : CfsLstr) (nidlist : List Nidrange) : Option (Option (List Nidrange)) :=
  match cfsGettok src '@' with
  | none => some none
  | some (addrrange, src) =>
    match cfsGettok src '@' with
    | none => some none
    | some (net, src) =>
      -- a second '@'
      if src.lsStr.isSome then some none
      else
        match net.lsStr with
        | none => none
        | some name =>
          match addNidrange name net.lsLen nidlist with
          | none => some none
          | some (before, nr, after) =>
            (parseAddrange addrrange nr).map fun
              | .ok nr => some (before ++ nr :: after)
              | .error _ => none

/-- `cfs_parse_nidlist(str, len, nidlist)`: the nidranges of the items of
`str` separated by blanks; `some none` when it returns 0. -/
def cfsParseNidlist (str : List Char) (len : Nat) : Option (Option (List Nidrange)) :=
  gettokLoop ' ' (fun nidlist res => parseNidrange res nidlist) ⟨some str, len⟩ []

/-! ## What a parse gives -/

/-- The address lists the parser of an entry makes: four octet lists for an
IP network and one list for a numeric one, none of them empty. -/
def Netstrfns.AddrlistShape (nf : Netstrfns) (list : List CfsExprList) : Prop :=
  list.length = (if nf.isIp then 4 else 1) ∧ ∀ el ∈ list, el.elExprs ≠ []

/-- The network of a nidrange: its entry and its number. -/
def Nidrange.key (nr : Nidrange) : Netstrfns × UInt32 := (nr.nrNetstrfns, nr.nrNetnum)

/-- What `cfs_parse_nidlist` makes of a string it accepts: address ranges of
the shape of their network, and one nidrange for each network. -/
structure WellFormed (nidlist : List Nidrange) : Prop where
  shaped : ∀ nr ∈ nidlist, ∀ ar ∈ nr.nrAddrranges, nr.nrNetstrfns.AddrlistShape ar.arNumaddrRanges
  separate : (nidlist.map Nidrange.key).Nodup

theorem cfsIpAddrParse_shape {str : List Char} {len : Nat} {list : List CfsExprList}
    (parsed : cfsIpAddrParse str len = some (.ok list)) :
    list.length = 4 ∧ ∀ el ∈ list, el.elExprs ≠ [] := by
  obtain ⟨result, ran, made⟩ := Option.map_eq_some_iff.mp parsed
  cases result with
  | none => simp at made
  | some els =>
    simp only at made
    split at made
    · rename_i four
      cases made
      refine ⟨four, gettokLoop_induction (fun els => ∀ el ∈ els, el.elExprs ≠ []) ?_ _ [] list
        (by simp) ran⟩
      -- each octet list that parses holds an expression
      intro els res next before stepped
      simp only [Option.bind_eq_bind, Option.bind_eq_some_iff] at stepped
      obtain ⟨octet, -, mapped⟩ := stepped
      obtain ⟨answer, octetParsed, gave⟩ := Option.map_eq_some_iff.mp mapped
      cases answer with
      | error => cases gave
      | ok el =>
        cases gave
        intro other mem
        rcases List.mem_append.mp mem with old | new
        · exact before other old
        · rw [List.mem_singleton.mp new]
          exact cfsExprListParse_ne_nil octetParsed
    · cases made

theorem nfParseAddrlist_shape {nf : Netstrfns} {str : List Char} {len : Nat}
    {list : List CfsExprList} (parsed : nf.nfParseAddrlist str len = some (.ok list)) :
    nf.AddrlistShape list := by
  unfold Netstrfns.nfParseAddrlist at parsed
  unfold Netstrfns.AddrlistShape
  split at parsed
  · rename_i ip
    simpa [ip] using cfsIpAddrParse_shape parsed
  · rename_i numeric
    obtain ⟨answer, elParsed, gave⟩ := Option.map_eq_some_iff.mp parsed
    cases answer with
    | error => cases gave
    | ok el =>
      cases gave
      simpa [numeric] using cfsExprListParse_ne_nil elParsed

/-- `parse_addrange` keeps the network of the nidrange, and what it adds has
the shape of the network. -/
theorem parseAddrange_spec {src : CfsLstr} {nr nr' : Nidrange}
    (parsed : parseAddrange src nr = some (.ok nr')) :
    nr'.key = nr.key ∧ (∀ ar ∈ nr'.nrAddrranges, ar ∈ nr.nrAddrranges ∨
      nr.nrNetstrfns.AddrlistShape ar.arNumaddrRanges) := by
  simp only [parseAddrange, Option.bind_eq_bind, Option.bind_eq_some_iff] at parsed
  obtain ⟨str, -, parsed⟩ := parsed
  by_cases star : src.lsLen = 1 ∧ str.head? = some '*'
  · rw [if_pos star] at parsed
    cases parsed
    exact ⟨rfl, fun ar mem => .inl mem⟩
  · rw [if_neg star, Option.bind_eq_some_iff] at parsed
    obtain ⟨answer, listParsed, gave⟩ := parsed
    cases answer with
    | error => cases gave
    | ok list =>
      cases gave
      refine ⟨rfl, fun ar mem => ?_⟩
      rcases List.mem_append.mp mem with old | new
      · exact .inl old
      · rw [List.mem_singleton.mp new]
        exact .inr (nfParseAddrlist_shape listParsed)

theorem isNet_eq_true_iff {nf : Netstrfns} {netnum : UInt32} {nr : Nidrange} :
    nr.isNet nf netnum = true ↔ nr.key = (nf, netnum) := by
  simp [Nidrange.isNet, Nidrange.key]

/-- The search of `add_nidrange` finds the nidrange of the network, or puts a
new empty one after the others, none of which is of the network. -/
theorem findNidrange_cases (nf : Netstrfns) (netnum : UInt32) (nidlist : List Nidrange) :
    let (before, nr, after) := findNidrange nf netnum nidlist
    nr.key = (nf, netnum) ∧ (∀ other ∈ before, other.key ≠ (nf, netnum)) ∧
      (nidlist = before ++ nr :: after ∨ (nidlist = before ∧ after = [] ∧ nr.nrAddrranges = [])) := by
  induction nidlist with
  | nil => simp [findNidrange, Nidrange.key]
  | cons first nidlist ih =>
    simp only [findNidrange]
    by_cases here : first.isNet nf netnum = true
    · simp only [here, if_true]
      exact ⟨isNet_eq_true_iff.mp here, by simp, .inl rfl⟩
    · simp only [here, Bool.false_eq_true, if_false]
      obtain ⟨found, others, placed⟩ := ih
      refine ⟨found, ?_, ?_⟩
      · intro other mem
        rcases List.mem_cons.mp mem with rfl | later
        · exact fun same => here (isNet_eq_true_iff.mpr same)
        · exact others other later
      · rcases placed with split | ⟨same, none, empty⟩
        · exact .inl (congrArg (first :: ·) split)
        · exact .inr ⟨congrArg (first :: ·) same, none, empty⟩

/-- Putting back a nidrange of the same network and of address ranges that
have the shape of the network keeps a list well formed. -/
theorem WellFormed.replace {before after : List Nidrange} {nr nr' : Nidrange}
    (formed : WellFormed (before ++ nr :: after)) (sameKey : nr'.key = nr.key)
    (shaped : ∀ ar ∈ nr'.nrAddrranges, ar ∈ nr.nrAddrranges ∨
      nr.nrNetstrfns.AddrlistShape ar.arNumaddrRanges) :
    WellFormed (before ++ nr' :: after) := by
  have sameNet : nr'.nrNetstrfns = nr.nrNetstrfns := congrArg Prod.fst sameKey
  refine ⟨fun other mem ar arMem => ?_, ?_⟩
  · rcases List.mem_append.mp mem with old | rest
    · exact formed.shaped other (by simp [old]) ar arMem
    · rcases List.mem_cons.mp rest with rfl | old
      · rw [sameNet]
        rcases shaped ar arMem with kept | new
        · exact formed.shaped nr (by simp) ar kept
        · exact new
      · exact formed.shaped other (by simp [old]) ar arMem
  · have keys := formed.separate
    simpa [sameKey] using keys

/-- A nidrange of a new network, with no address ranges yet, at the end of a
well formed list keeps it well formed. -/
theorem WellFormed.append_new {nidlist : List Nidrange} {nr : Nidrange}
    (formed : WellFormed nidlist) (fresh : ∀ other ∈ nidlist, other.key ≠ nr.key)
    (empty : nr.nrAddrranges = []) : WellFormed (nidlist ++ [nr]) := by
  refine ⟨fun other mem ar arMem => ?_, ?_⟩
  · rcases List.mem_append.mp mem with old | new
    · exact formed.shaped other old ar arMem
    · rw [List.mem_singleton.mp new, empty] at arMem
      cases arMem
  · rw [List.map_append, List.nodup_append]
    refine ⟨formed.separate, by simp, ?_⟩
    intro key old key' new
    obtain ⟨other, mem, rfl⟩ := List.mem_map.mp old
    rw [List.map_singleton, List.mem_singleton] at new
    rw [new]
    exact fresh other mem

/-- `parse_nidrange` keeps a list well formed. -/
theorem parseNidrange_wellFormed {src : CfsLstr} {nidlist nidlist' : List Nidrange}
    (formed : WellFormed nidlist) (parsed : parseNidrange src nidlist = some (some nidlist')) :
    WellFormed nidlist' := by
  unfold parseNidrange at parsed
  split at parsed
  · cases parsed
  · split at parsed
    · cases parsed
    · split at parsed
      · cases parsed
      · split at parsed
        · cases parsed
        · rename_i name _
          split at parsed
          · cases parsed
          · rename_i before nr after added
            obtain ⟨answer, rangeParsed, gave⟩ := Option.map_eq_some_iff.mp parsed
            cases answer with
            | error => cases gave
            | ok nr' =>
              cases gave
              obtain ⟨sameKey, shaped⟩ := parseAddrange_spec rangeParsed
              -- where `add_nidrange` found or made the nidrange
              unfold addNidrange at added
              split at added
              · cases added
              · simp only [Option.bind_eq_bind, Option.bind_eq_some_iff] at added
                obtain ⟨nf, -, netnum, -, found⟩ := added
                have cases := findNidrange_cases nf netnum nidlist
                rw [Option.pure_def, Option.some.injEq] at found
                rw [found] at cases
                obtain ⟨isKey, others, placed⟩ := cases
                rcases placed with rfl | ⟨rfl, rfl, empty⟩
                · exact formed.replace sameKey shaped
                · have grown := @WellFormed.append_new _ nr formed
                    (fun other mem => isKey ▸ others other mem) empty
                  refine grown.replace sameKey fun ar mem => ?_
                  rcases shaped ar mem with kept | new
                  · exact .inl kept
                  · exact .inr new

/-- `*@tcp 1.2.3.4@tcp`. -/
def starTcpText : List Char :=
  ['*', '@', 't', 'c', 'p', ' ', '1', '.', '2', '.', '3', '.', '4', '@', 't', 'c', 'p']

/-- The one nidrange it compiles to: all of `tcp`, and `1.2.3.4` too. -/
def starTcpList : List Nidrange :=
  [⟨[⟨[⟨[⟨1, 1, 1⟩]⟩, ⟨[⟨2, 2, 1⟩]⟩, ⟨[⟨3, 3, 1⟩]⟩, ⟨[⟨4, 4, 1⟩]⟩]⟩], true, .tcp, 0⟩]

theorem starTcpList_wellFormed : WellFormed starTcpList :=
  ⟨by simp [starTcpList, Netstrfns.AddrlistShape, Netstrfns.isIp], by simp [starTcpList]⟩

/-- Every list `cfs_parse_nidlist` accepts is well formed. -/
theorem cfsParseNidlist_wellFormed {str : List Char} {len : Nat} {nidlist : List Nidrange}
    (parsed : cfsParseNidlist str len = some (some nidlist)) : WellFormed nidlist :=
  gettokLoop_induction WellFormed (fun _ _ _ formed stepped => parseNidrange_wellFormed formed stepped)
    _ [] nidlist ⟨by simp, by simp⟩ parsed

theorem cfsParseNidlist_wellFormed_starTcp :
    cfsParseNidlist starTcpText starTcpText.length = some (some starTcpList) ∧
      WellFormed starTcpList :=
  have parsed : cfsParseNidlist starTcpText starTcpText.length = some (some starTcpList) := by rfl
  ⟨parsed, cfsParseNidlist_wellFormed parsed⟩

/-! ## Matching -/

/-- The walk of `cfs_ip_addr_match` over the octet lists from the last one,
with the address shifted right by a byte at each. -/
def ipOctetsMatch : UInt32 → Nat → List CfsExprList → Option Bool
  | _, i, [] => some (i == 4)
  | addr, i, el :: els => do
    let matched ← cfsExprListMatch (addr &&& 0xff) el
    if matched then ipOctetsMatch (addr >>> 8) (i + 1) els else some false

/-- `cfs_ip_addr_match(addr, list)`. -/
def cfsIpAddrMatch (addr : UInt32) (list : List CfsExprList) : Option Bool :=
  ipOctetsMatch addr 0 list.reverse

/-- `libcfs_num_match(addr, numaddr)`: the first expression list, which the
code asserts is there. -/
def libcfsNumMatch (addr : UInt32) : List CfsExprList → Option Bool
  | [] => none
  | el :: _ => cfsExprListMatch addr el

/-- `nf_match_addr`. -/
def Netstrfns.nfMatchAddr (nf : Netstrfns) (addr : UInt32) (list : List CfsExprList) :
    Option Bool :=
  if nf.isIp then cfsIpAddrMatch addr list else libcfsNumMatch addr list

/-- `cfs_match_nid(nid, nidlist)`. -/
def cfsMatchNid (nid : UInt64) : List Nidrange → Option Bool
  | [] => some false
  | nr :: nidlist =>
    if nr.nrNetstrfns.nfType ≠ lnetNettyp (lnetNidnet nid) then cfsMatchNid nid nidlist
    else if nr.nrNetnum ≠ lnetNetnum (lnetNidnet nid) then cfsMatchNid nid nidlist
    else if nr.nrAll then some true
    else do
      let matched ← nr.nrAddrranges.anyM fun ar =>
        nr.nrNetstrfns.nfMatchAddr (lnetNidaddr nid) ar.arNumaddrRanges
      if matched then some true else cfsMatchNid nid nidlist

/-- Byte `i` of an address, from the least significant. -/
def addrByte (addr : UInt32) (i : Nat) : UInt32 := (addr.toNat / 256 ^ i % 256).toUInt32

theorem addrByte_zero (addr : UInt32) : addrByte addr 0 = addr &&& 0xff := by
  apply UInt32.toNat_inj.mp
  rw [UInt32.toNat_and]
  have low : addr.toNat &&& (0xff : UInt32).toNat = addr.toNat % 256 :=
    Nat.and_two_pow_sub_one_eq_mod addr.toNat 8
  rw [low]
  simp [addrByte]
  omega

theorem addrByte_shiftRight (addr : UInt32) (i : Nat) :
    addrByte (addr >>> 8) i = addrByte addr (i + 1) := by
  have shifted : (addr >>> 8).toNat = addr.toNat / 256 := by
    rw [UInt32.toNat_shiftRight]
    simp [Nat.shiftRight_eq_div_pow]
  simp only [addrByte, shifted, Nat.div_div_eq_div_mul, Nat.pow_succ, Nat.mul_comm]

/-- The addresses an address range of entry `nf` holds: for an IP network,
those whose byte `i` from the least significant lies in the `i`-th octet list
from the last; for a numeric one, the numbers in its first list. -/
def Netstrfns.Holds (nf : Netstrfns) (list : List CfsExprList) (addr : UInt32) : Prop :=
  if nf.isIp then
    list.length = 4 ∧
      ∀ (i : Nat) (el : CfsExprList), list.reverse[i]? = some el → ∃ expr ∈ el.elExprs, expr.Contains (addrByte addr i)
  else ∃ el, list.head? = some el ∧ ∃ expr ∈ el.elExprs, expr.Contains addr

/-- The expression lists hold no range of stride zero. -/
def StridedLists (els : List CfsExprList) : Prop :=
  ∀ el ∈ els, ∀ expr ∈ el.elExprs, expr.reStride ≠ 0

/-- The walk of `cfs_ip_addr_match` from octet `i` matches when the lists left
make four with those behind, and each holds its byte of the shifted address. -/
theorem ipOctetsMatch_spec (addr : UInt32) (i : Nat) (els : List CfsExprList)
    (strided : StridedLists els) :
    ∃ matched, ipOctetsMatch addr i els = some matched ∧
      (matched = true ↔ i + els.length = 4 ∧
        ∀ (j : Nat) (el : CfsExprList), els[j]? = some el → ∃ expr ∈ el.elExprs, expr.Contains (addrByte addr j)) := by
  induction els generalizing addr i with
  | nil => exact ⟨i == 4, rfl, by simp⟩
  | cons el els ih =>
    have first := cfsExprListMatch_eq (addr &&& 0xff) el (strided el (by simp))
    rw [← addrByte_zero] at first
    by_cases holds : ∃ expr ∈ el.elExprs, expr.Contains (addrByte addr 0)
    · obtain ⟨matched, walked, restIff⟩ :=
        ih (addr >>> 8) (i + 1) fun other mem => strided other (by simp [mem])
      refine ⟨matched, by simp [ipOctetsMatch, ← addrByte_zero, first, holds, walked], ?_⟩
      rw [restIff]
      simp only [addrByte_shiftRight, List.length_cons]
      constructor
      · rintro ⟨four, later⟩
        refine ⟨by omega, fun j other got => ?_⟩
        cases j with
        | zero =>
          cases got
          exact holds
        | succ j => exact later j other got
      · rintro ⟨four, all⟩
        exact ⟨by omega, fun j other got => all (j + 1) other got⟩
    · refine ⟨false, by simp [ipOctetsMatch, ← addrByte_zero, first, holds], ?_⟩
      simp only [Bool.false_eq_true, false_iff, not_and]
      exact fun _ all => holds (all 0 el rfl)

/-- `cfs_ip_addr_match` on four octet lists: the bytes of the address, from
the least significant, lie in the lists from the last. -/
theorem cfsIpAddrMatch_spec (addr : UInt32) (list : List CfsExprList)
    (strided : StridedLists list) :
    ∃ matched, cfsIpAddrMatch addr list = some matched ∧
      (matched = true ↔ list.length = 4 ∧
        ∀ (i : Nat) (el : CfsExprList), list.reverse[i]? = some el → ∃ expr ∈ el.elExprs, expr.Contains (addrByte addr i)) := by
  obtain ⟨matched, walked, iff⟩ :=
    ipOctetsMatch_spec addr 0 list.reverse fun el mem => strided el (List.mem_reverse.mp mem)
  refine ⟨matched, walked, ?_⟩
  rw [iff, List.length_reverse, Nat.zero_add]

/-- On address lists of the shape of its network, `nf_match_addr` decides what
the address range holds. -/
theorem nfMatchAddr_spec {nf : Netstrfns} {list : List CfsExprList} (addr : UInt32)
    (shaped : nf.AddrlistShape list) (strided : StridedLists list) :
    ∃ matched, nf.nfMatchAddr addr list = some matched ∧ (matched = true ↔ nf.Holds list addr) := by
  unfold Netstrfns.nfMatchAddr Netstrfns.Holds
  cases ip : nf.isIp with
  | true => simpa using cfsIpAddrMatch_spec addr list strided
  | false =>
    obtain ⟨one, -⟩ := shaped
    rw [ip, if_neg Bool.false_ne_true] at one
    obtain ⟨el, rfl⟩ := List.length_eq_one_iff.mp one
    refine ⟨_, cfsExprListMatch_eq addr el (strided el (by simp)), ?_⟩
    simp

/-- The NIDs a nidrange holds: those of its network with any address for `*`,
or an address one of its address ranges holds. -/
def Nidrange.Holds (nr : Nidrange) (nid : UInt64) : Prop :=
  nr.nrNetstrfns.nfType = lnetNettyp (lnetNidnet nid) ∧ nr.nrNetnum = lnetNetnum (lnetNidnet nid) ∧
    (nr.nrAll = true ∨ ∃ ar ∈ nr.nrAddrranges, nr.nrNetstrfns.Holds ar.arNumaddrRanges (lnetNidaddr nid))

/-- No range of the list has stride zero. -/
def Strided (nidlist : List Nidrange) : Prop :=
  ∀ nr ∈ nidlist, ∀ ar ∈ nr.nrAddrranges, StridedLists ar.arNumaddrRanges

/-- On a well formed list whose ranges have nonzero strides, `cfs_match_nid`
matches exactly the NIDs that one of its nidranges holds. -/
theorem cfsMatchNid_spec (nid : UInt64) {nidlist : List Nidrange} (formed : WellFormed nidlist)
    (strided : Strided nidlist) :
    ∃ matched, cfsMatchNid nid nidlist = some matched ∧
      (matched = true ↔ ∃ nr ∈ nidlist, nr.Holds nid) := by
  obtain ⟨shaped, -⟩ := formed
  induction nidlist with
  | nil => exact ⟨false, rfl, by simp⟩
  | cons nr nidlist ih =>
    obtain ⟨rest, walked, restIff⟩ := ih (fun other mem => strided other (by simp [mem]))
      (fun other mem => shaped other (by simp [mem]))
    have skip : ¬ nr.Holds nid → ((∃ other ∈ nr :: nidlist, other.Holds nid) ↔
        ∃ other ∈ nidlist, other.Holds nid) := fun notHere => by
      simp only [List.mem_cons, exists_eq_or_imp, notHere, false_or]
    unfold cfsMatchNid
    by_cases type : nr.nrNetstrfns.nfType = lnetNettyp (lnetNidnet nid)
    · by_cases num : nr.nrNetnum = lnetNetnum (lnetNidnet nid)
      · rw [if_neg (not_not.mpr type), if_neg (not_not.mpr num)]
        cases all : nr.nrAll with
        | true => exact ⟨true, rfl, by simp only [true_iff]; exact ⟨nr, by simp, type, num, .inl all⟩⟩
        | false =>
          -- the address ranges of the network decide first
          obtain ⟨here, ranged, hereIff⟩ := @anyM_decides Addrrange _
            (fun ar => nr.nrNetstrfns.Holds ar.arNumaddrRanges (lnetNidaddr nid)) nr.nrAddrranges
            fun ar mem => nfMatchAddr_spec _ (shaped nr (by simp) ar mem) (strided nr (by simp) ar mem)
          cases here with
          | true =>
            refine ⟨true, by simp [ranged], ?_⟩
            simp only [true_iff]
            exact ⟨nr, by simp, type, num, .inr (hereIff.mp rfl)⟩
          | false =>
            refine ⟨rest, by simp [ranged, walked], ?_⟩
            rw [restIff, skip]
            rintro ⟨-, -, star | ranges⟩
            · simp [all] at star
            · exact absurd (hereIff.mpr ranges) (by simp)
      · rw [if_neg (not_not.mpr type), if_pos num]
        exact ⟨rest, walked, by rw [restIff, skip fun ⟨_, same, _⟩ => num same]⟩
    · rw [if_pos type]
      exact ⟨rest, walked, by rw [restIff, skip fun ⟨same, _⟩ => type same]⟩

theorem cfsMatchNid_spec_starTcp :
    ∃ matched, cfsMatchNid (lnetMknid (lnetMknet socklnd 0) 7) starTcpList = some matched ∧
      (matched = true ↔ ∃ nr ∈ starTcpList, nr.Holds (lnetMknid (lnetMknet socklnd 0) 7)) :=
  cfsMatchNid_spec _ starTcpList_wellFormed (by simp [Strided, StridedLists, starTcpList])

/-! ## Printing -/

/-- Text after what has been written, with `sep` between them when something
has: the `if (i != 0)` of the printers. -/
def appendAfter (sep : Char) (out piece : List Char) : List Char :=
  if out.isEmpty then piece else out ++ sep :: piece

/-- `cfs_print_network(nr)`. -/
def cfsPrintNetwork (nr : Nidrange) : List Char :=
  if nr.nrNetnum = 0 then '@' :: nr.nrNetstrfns.nfName
  else '@' :: (nr.nrNetstrfns.nfName ++ printU nr.nrNetnum)

/-- `libcfs_ip_addr_range_print(list)`: the octet lists separated by '.';
`none` at the fifth, where `LASSERT(j++ < 4)` fails. -/
def libcfsIpAddrRangePrint (list : List CfsExprList) : Option (List Char) :=
  if 4 < list.length then none
  else some (list.foldl (fun out el => appendAfter '.' out (cfsExprListPrint el)) [])

/-- `libcfs_num_addr_range_print(list)`: `none` at a second list, where
`LASSERT(j++ < 1)` fails. -/
def libcfsNumAddrRangePrint (list : List CfsExprList) : Option (List Char) :=
  if 1 < list.length then none
  else some (list.foldl (fun out el => out ++ cfsExprListPrint el) [])

/-- `nf_print_addrlist`. -/
def Netstrfns.nfPrintAddrlist (nf : Netstrfns) (list : List CfsExprList) : Option (List Char) :=
  if nf.isIp then libcfsIpAddrRangePrint list else libcfsNumAddrRangePrint list

/-- `cfs_print_addrranges(addrranges, nr)`: each address range and the network. -/
def cfsPrintAddrranges (addrranges : List Addrrange) (nr : Nidrange) : Option (List Char) :=
  addrranges.foldlM (fun out ar => do
    let addrs ← nr.nrNetstrfns.nfPrintAddrlist ar.arNumaddrRanges
    return appendAfter ' ' out (addrs ++ cfsPrintNetwork nr)) []

/-- One nidrange of `cfs_print_nidlist`: `none` where `LASSERT` finds address
ranges in a nidrange of `*`. -/
def printNidrange (nr : Nidrange) : Option (List Char) :=
  if nr.nrAll then
    if nr.nrAddrranges.isEmpty then some ('*' :: cfsPrintNetwork nr) else none
  else cfsPrintAddrranges nr.nrAddrranges nr

/-- `cfs_print_nidlist(buffer, count, nidlist)` into a buffer that is large
enough. -/
def cfsPrintNidlist (nidlist : List Nidrange) : Option (List Char) :=
  nidlist.foldlM (fun out nr => do
    let printed ← printNidrange nr
    return (if out.isEmpty then out else out ++ [' ']) ++ printed) []

/-- An address list of the shape of its network prints: the assertions of
the address printers hold. -/
theorem nfPrintAddrlist_isSome {nf : Netstrfns} {list : List CfsExprList}
    (shaped : nf.AddrlistShape list) : (nf.nfPrintAddrlist list).isSome := by
  obtain ⟨length, -⟩ := shaped
  unfold Netstrfns.nfPrintAddrlist libcfsIpAddrRangePrint libcfsNumAddrRangePrint
  cases ip : nf.isIp <;> simp_all

theorem cfsPrintAddrranges_isSome {addrranges : List Addrrange} {nr : Nidrange}
    (shaped : ∀ ar ∈ addrranges, nr.nrNetstrfns.AddrlistShape ar.arNumaddrRanges) :
    (cfsPrintAddrranges addrranges nr).isSome := by
  unfold cfsPrintAddrranges
  generalize ([] : List Char) = out
  induction addrranges generalizing out with
  | nil => rfl
  | cons ar addrranges ih =>
    obtain ⟨addrs, printed⟩ :=
      Option.isSome_iff_exists.mp (nfPrintAddrlist_isSome (shaped ar (by simp)))
    simp only [List.foldlM_cons, printed, Option.bind_eq_bind, Option.bind_some, Option.pure_def]
    exact ih (fun other mem => shaped other (by simp [mem])) _

/-- A nidrange whose address ranges have the shape of its network fails to
print exactly when it is `*` and has address ranges. -/
theorem printNidrange_eq_none_iff {nr : Nidrange}
    (shaped : ∀ ar ∈ nr.nrAddrranges, nr.nrNetstrfns.AddrlistShape ar.arNumaddrRanges) :
    printNidrange nr = none ↔ nr.nrAll = true ∧ nr.nrAddrranges ≠ [] := by
  unfold printNidrange
  cases all : nr.nrAll with
  | false =>
    have printed := cfsPrintAddrranges_isSome shaped
    simpa [Option.isSome_iff_ne_none] using printed
  | true => cases nr.nrAddrranges <;> simp

/-- The printer fails exactly when one of the nidranges does. -/
theorem cfsPrintNidlist_eq_none_iff_printNidrange (nidlist : List Nidrange) :
    cfsPrintNidlist nidlist = none ↔ ∃ nr ∈ nidlist, printNidrange nr = none := by
  -- the walk fails at a nidrange whatever has been written before it
  suffices walk : ∀ out, nidlist.foldlM (fun out nr => do
      let printed ← printNidrange nr
      return (if out.isEmpty then out else out ++ [' ']) ++ printed) out = none ↔
        ∃ nr ∈ nidlist, printNidrange nr = none from walk []
  induction nidlist with
  | nil => simp
  | cons nr nidlist ih =>
    intro out
    rw [List.foldlM_cons]
    cases printed : printNidrange nr with
    | none => simp [printed]
    | some text =>
      refine (ih _).trans ?_
      simp [printed]

/-- On a well formed list, which is what every accepted string gives, the
printer fails exactly at a nidrange of `*` that also holds address ranges. -/
theorem cfsPrintNidlist_eq_none_iff {nidlist : List Nidrange} (formed : WellFormed nidlist) :
    cfsPrintNidlist nidlist = none ↔ ∃ nr ∈ nidlist, nr.nrAll = true ∧ nr.nrAddrranges ≠ [] := by
  rw [cfsPrintNidlist_eq_none_iff_printNidrange]
  constructor
  · rintro ⟨nr, mem, fails⟩
    exact ⟨nr, mem, (printNidrange_eq_none_iff (formed.shaped nr mem)).mp fails⟩
  · rintro ⟨nr, mem, both⟩
    exact ⟨nr, mem, (printNidrange_eq_none_iff (formed.shaped nr mem)).mpr both⟩

theorem cfsPrintNidlist_eq_none_iff_starTcp :
    cfsPrintNidlist starTcpList = none ↔
      ∃ nr ∈ starTcpList, nr.nrAll = true ∧ nr.nrAddrranges ≠ [] :=
  cfsPrintNidlist_eq_none_iff starTcpList_wellFormed

/-- `[1-5/]@gni`. -/
def zeroStrideText : List Char := ['[', '1', '-', '5', '/', ']', '@', 'g', 'n', 'i']

/-- What it compiles to: the range from 1 to 5 of stride zero. -/
def zeroStrideList : List Nidrange := [⟨[⟨[⟨[⟨1, 5, 0⟩]⟩]⟩], false, .gni, 0⟩]

theorem cfsPrintNidlist_asserts_on_star_with_ranges :
    cfsParseNidlist starTcpText starTcpText.length = some (some starTcpList) ∧
      cfsPrintNidlist starTcpList = none ∧
      cfsParseNidlist zeroStrideText zeroStrideText.length = some (some zeroStrideList) ∧
      cfsMatchNid (lnetMknid (lnetMknet gnilnd 0) 3) zeroStrideList = none :=
  ⟨by rfl, by decide, by rfl, by decide⟩

/-! ## Contiguity and the lowest and highest NID -/

/-- The expressions of an address range, octet after octet. -/
def Addrrange.exprs (ar : Addrrange) : List CfsRangeExpr :=
  ar.arNumaddrRanges.flatMap CfsExprList.elExprs

/-- The address of four octets, most significant first. -/
def ipOfOctets (octets : Nat → UInt32) : UInt32 :=
  (octets 0 <<< 24) ||| (octets 1 <<< 16) ||| (octets 2 <<< 8) ||| octets 3

/-- `cfs_ip_ar_min_max(ar)`: the low ends and the high ends of the expressions
of an address range, stored one after the other in arrays of four; `none`
when there are more than four, where `min_ip[re_count]` is written past the
array. -/
def cfsIpArMinMax (ar : Addrrange) : Option (UInt32 × UInt32) :=
  if 4 < ar.exprs.length then none
  else some (ipOfOctets fun k => (ar.exprs[k]?.map CfsRangeExpr.reLo).getD 0,
    ipOfOctets fun k => (ar.exprs[k]?.map CfsRangeExpr.reHi).getD 0)

/-- `cfs_num_ar_min_max(ar)`: the least low end (0 meaning none yet) and the
greatest high end of the expressions of an address range. -/
def cfsNumArMinMax (ar : Addrrange) : UInt32 × UInt32 :=
  ar.exprs.foldl (fun (minAddr, maxAddr) re =>
    (if re.reLo < minAddr ∨ minAddr = 0 then re.reLo else minAddr,
     if re.reHi > maxAddr then re.reHi else maxAddr)) (0, 0)

/-- The address ranges of a list, nidrange after nidrange. -/
def addrrangesOf (nidlist : List Nidrange) : List Addrrange :=
  nidlist.flatMap Nidrange.nrAddrranges

/-- `cfs_num_min_max(nidlist)`: over the address ranges, the least of their
lowest addresses and, as the source has it, the lowest address of the last
range whose highest address is greater than every highest address before it. -/
def cfsNumMinMax (nidlist : List Nidrange) : UInt32 × UInt32 :=
  (addrrangesOf nidlist).foldl (fun (minAddr, maxAddr) ar =>
    let (tmpMinAddr, tmpMaxAddr) := cfsNumArMinMax ar
    (if tmpMinAddr < minAddr ∨ minAddr = 0 then tmpMinAddr else minAddr,
     if tmpMaxAddr > maxAddr then tmpMinAddr else maxAddr)) (0, 0)

/-- On a list of one address range whose high ends reach above 0,
`cfs_num_min_max` reports the least low end as the lowest and also as the
highest address. -/
theorem cfsNumMinMax_of_single {nidlist : List Nidrange} {ar : Addrrange}
    (single : addrrangesOf nidlist = [ar]) (reaches : 0 < (cfsNumArMinMax ar).2) :
    cfsNumMinMax nidlist = ((cfsNumArMinMax ar).1, (cfsNumArMinMax ar).1) := by
  unfold cfsNumMinMax
  rw [single]
  simp [reaches]

/-- `cfs_ip_min_max(nidlist)`: the least lowest and the greatest highest
address of the address ranges. -/
def cfsIpMinMax (nidlist : List Nidrange) : Option (UInt32 × UInt32) :=
  (addrrangesOf nidlist).foldlM (fun (minAddr, maxAddr) ar => do
    let (tmpMinAddr, tmpMaxAddr) ← cfsIpArMinMax ar
    return (if tmpMinAddr < minAddr ∨ minAddr = 0 then tmpMinAddr else minAddr,
      if tmpMaxAddr > maxAddr then tmpMaxAddr else maxAddr)) (0, 0)

/-- `nf_min_max`. -/
def Netstrfns.nfMinMax (nf : Netstrfns) (nidlist : List Nidrange) : Option (UInt32 × UInt32) :=
  if nf.isIp then cfsIpMinMax nidlist else some (cfsNumMinMax nidlist)

/-- The walk of `cfs_num_is_contiguous` over the expressions of one address
range: `none` where it returns false, else the last high end.  `last_hi` is an
`int` that holds the bits of the `__u32` high end, and `re_hi - last_hi` is
unsigned. -/
def numExprsContiguous : List CfsRangeExpr → UInt32 → Option UInt32
  | [], lastHi => some lastHi
  | re :: res, lastHi =>
    if re.reStride > 1 then none
    else if lastHi ≠ 0 ∧ re.reHi - lastHi ≠ 1 then none
    else numExprsContiguous res re.reHi

/-- The walk of `cfs_num_is_contiguous` over the address ranges. -/
def numArsContiguous : List Addrrange → UInt32 → UInt32 → Bool
  | [], _, _ => true
  | ar :: ars, lastEndNid, lastHi =>
    let (currentStartNid, currentEndNid) := cfsNumArMinMax ar
    if lastEndNid ≠ 0 ∧ currentStartNid - lastEndNid ≠ 1 then false
    else
      match numExprsContiguous ar.exprs lastHi with
      | none => false
      | some lastHi => numArsContiguous ars currentEndNid lastHi

/-- `cfs_num_is_contiguous(nidlist)`. -/
def cfsNumIsContiguous (nidlist : List Nidrange) : Bool :=
  numArsContiguous (addrrangesOf nidlist) 0 0

/-- The walk of `cfs_ip_is_contiguous` over the expressions of one address
range, from `last_hi` and `last_diff`: `none` where it returns false.  The
difference `re_hi - re_lo` is unsigned and stored in an `int`. -/
def ipExprsContiguous : List CfsRangeExpr → UInt32 → Int32 → Option (UInt32 × Int32)
  | [], lastHi, lastDiff => some (lastHi, lastDiff)
  | re :: res, lastHi, lastDiff =>
    if re.reStride > 1 ∨ (lastDiff > 0 ∧ lastHi ≠ 255) ∨ (lastDiff > 0 ∧ lastHi = 255 ∧ re.reLo > 0) then
      none
    else ipExprsContiguous res re.reHi (re.reHi - re.reLo).toInt32

/-- The walk of `cfs_ip_is_contiguous` over the address ranges; the outer
`none` is the overflow of `cfs_ip_ar_min_max`. -/
def ipArsContiguous : List Addrrange → UInt32 → Option Bool
  | [], _ => some true
  | ar :: ars, lastEndNid => do
    let (currentStartNid, currentEndNid) ← cfsIpArMinMax ar
    if lastEndNid ≠ 0 ∧ currentStartNid - lastEndNid ≠ 1 then some false
    else
      match ipExprsContiguous ar.exprs 255 0 with
      | none => some false
      | some _ => ipArsContiguous ars currentEndNid

/-- `cfs_ip_is_contiguous(nidlist)`. -/
def cfsIpIsContiguous (nidlist : List Nidrange) : Option Bool :=
  ipArsContiguous (addrrangesOf nidlist) 0

/-- `nf_is_contiguous`. -/
def Netstrfns.nfIsContiguous (nf : Netstrfns) (nidlist : List Nidrange) : Option Bool :=
  if nf.isIp then cfsIpIsContiguous nidlist else some (cfsNumIsContiguous nidlist)

/-- The loop of `cfs_nidrange_is_contiguous` from `lndname` and `netnum` (-1
until set): `none` where two nidranges differ in the name or the number of
their network, else the entry of the last one. -/
def sameNetworkLoop : List Nidrange → Option (List Char) → Int32 → Option Netstrfns →
    Option (Option Netstrfns)
  | [], _, _, nf => some nf
  | nr :: nidlist, lndname, netnum, _ =>
    let nf := nr.nrNetstrfns
    let lndname := lndname.getD nf.nfName
    let netnum := if netnum = -1 then nr.nrNetnum.toInt32 else netnum
    if lndname ≠ nf.nfName ∨ netnum ≠ nr.nrNetnum.toInt32 then none
    else sameNetworkLoop nidlist (some lndname) netnum (some nf)

/-- `cfs_nidrange_is_contiguous(nidlist)`; `none` where the test of the entry
crashes. -/
def cfsNidrangeIsContiguous (nidlist : List Nidrange) : Option Bool :=
  match sameNetworkLoop nidlist none (-1) none with
  | none => some false
  | some none => some false
  | some (some nf) => nf.nfIsContiguous nidlist

/-- `%u.%u.%u.%u` of `libcfs_ip_addr2str`. -/
def libcfsIpAddr2str (addr : UInt32) : List Char :=
  printU ((addr >>> 24) &&& 0xff) ++ '.' :: printU ((addr >>> 16) &&& 0xff) ++
    '.' :: printU ((addr >>> 8) &&& 0xff) ++ '.' :: printU (addr &&& 0xff)

/-- `libcfs_decnum_addr2str`. -/
def libcfsDecnumAddr2str (addr : UInt32) : List Char := printU addr

/-- `nf_addr2str`. -/
def Netstrfns.nfAddr2str (nf : Netstrfns) (addr : UInt32) : List Char :=
  if nf.isIp then libcfsIpAddr2str addr else libcfsDecnumAddr2str addr

/-- `%d`. -/
def printD (n : Int32) : List Char :=
  if n < 0 then '-' :: Nat.toDigits 10 n.toInt.natAbs else Nat.toDigits 10 n.toInt.toNat

/-- The network number of `cfs_nidrange_find_min_max`: the first that is not
-1, from -1. -/
def firstNetnum (nidlist : List Nidrange) : Int32 :=
  nidlist.foldl (fun netnum nr => if netnum = -1 then nr.nrNetnum.toInt32 else netnum) (-1)

/-- `cfs_nidrange_find_min_max(nidlist)`: the lowest and the highest NID as
`%s@%s%d`, with the name of the last network and the first network number.
Each round calls `nf_min_max` of its own nidrange on the whole list; on an
empty list `nf` is NULL. -/
def cfsNidrangeFindMinMax (nidlist : List Nidrange) : Option (List Char × List Char) := do
  let found ← nidlist.mapM fun nr => nr.nrNetstrfns.nfMinMax nidlist
  let last ← nidlist.getLast?
  let (minAddr, maxAddr) ← found.getLast?
  let nf := last.nrNetstrfns
  let net := '@' :: (nf.nfName ++ printD (firstNetnum nidlist))
  return (nf.nfAddr2str minAddr ++ net, nf.nfAddr2str maxAddr ++ net)

/-- `[5-10]@gni`. -/
def gniRangeText : List Char := ['[', '5', '-', '1', '0', ']', '@', 'g', 'n', 'i']

/-- What it compiles to: the numbers from 5 to 10 on `gni`. -/
def gniRangeList : List Nidrange := [⟨[⟨[⟨[⟨5, 10, 1⟩]⟩]⟩], false, .gni, 0⟩]

theorem cfsNidrangeFindMinMax_reports_low_end_as_max :
    cfsParseNidlist gniRangeText gniRangeText.length = some (some gniRangeList) ∧
      cfsNidrangeIsContiguous gniRangeList = some true ∧
      cfsNidrangeFindMinMax gniRangeList =
        some (['5', '@', 'g', 'n', 'i', '0'], ['5', '@', 'g', 'n', 'i', '0']) ∧
      cfsMatchNid (lnetMknid (lnetMknet gnilnd 0) 7) gniRangeList = some true :=
  ⟨by rfl, by decide, by decide, by decide⟩

end Lnet
end Lustre
