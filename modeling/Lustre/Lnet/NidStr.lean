import Lustre.Lnet.Nidstrings
import Lustre.Library.Scanf
import Lustre.Library.Word

/-!
# NIDs as strings (lnet/nidstrings.c)

`libcfs_nid2str_r` prints a NID as its address, `@`, the name of its network
type, and the network number when that is not 0: `192.168.0.1@tcp`, `5@gni2`,
`0@lo`.  A NID of a type that no entry of `libcfs_netstrfns` has is printed as
`%x@<type:num>`.  `libcfs_str2nid` reads the network after the first `@` with
`libcfs_str2net_internal`, by the first entry whose name begins it and a number
read with `%u`, and then the address before the `@` with the entry's
`nf_str2addr`.  A string is the list of its characters before the NUL.

Every NID of a known type reads back from its string, a loopback NID being
`0@lo`.  `LNET_MKNET` ors the network number into the word that holds the type
above it, so a number of `2^16` or more read after a name changes the type:
`1.2.3.4@tcp65536` reads as a NID of type 3, which has no entry.  That NID
prints as `1020304@<3:0>`, which reads as `LNET_NID_ANY`.
-/

namespace Lustre
namespace Lnet

open Scanf Libcfs

/-- `LNET_NID_ANY`. -/
def lnetNidAny : UInt64 := 0xffffffffffffffff

/-- What `snprintf(str, size, ...)` keeps of `text`: at most `size - 1`
characters and the NUL. -/
def snprintf (size : Nat) (text : List Char) : List Char := text.take (size - 1)

/-! ## Addresses

The printers `libcfs_ip_addr2str` and `libcfs_decnum_addr2str` are those of
`Lustre.Lnet.Nidstrings`, with the buffer's size applied by `snprintf`. -/

/-- The format `"%u.%u.%u.%u%n"`. -/
def ipAddrFormat : List Directive :=
  [.unsigned 10, .literal '.', .unsigned 10, .literal '.', .unsigned 10, .literal '.', .unsigned 10, .count]

/-- `libcfs_ip_str2addr(str, nob, &addr)`: four numbers below 256 separated by
dots, ending after `nob` characters. -/
def libcfsIpStr2addr (str : List Char) (nob : Nat) : Option UInt32 :=
  match scanExactly ipAddrFormat 4 str nob with
  | some [a, b, c, d] =>
    if (a &&& ~~~0xff) = 0 ∧ (b &&& ~~~0xff) = 0 ∧ (c &&& ~~~0xff) = 0 ∧ (d &&& ~~~0xff) = 0 then
      some ((a <<< 24) ||| (b <<< 16) ||| (c <<< 8) ||| d)
    else none
  | _ => none

/-- `libcfs_num_str2addr(str, nob, &addr)`: `"0x%x%n"`, then `"0X%x%n"`, then
`"%u%n"`, each ending after `nob` characters. -/
def libcfsNumStr2addr (str : List Char) (nob : Nat) : Option UInt32 :=
  match scanExactly [.literal '0', .literal 'x', .unsigned 16, .count] 1 str nob with
  | some (addr :: _) => some addr
  | _ =>
    match scanExactly [.literal '0', .literal 'X', .unsigned 16, .count] 1 str nob with
    | some (addr :: _) => some addr
    | _ =>
      match scanExactly [.unsigned 10, .count] 1 str nob with
      | some (addr :: _) => some addr
      | _ => none

/-- `libcfs_lo_str2addr`: every string is the address 0. -/
def libcfsLoStr2addr (_str : List Char) (_nob : Nat) : Option UInt32 := some 0

namespace Netstrfns

/-- `nf_str2addr`. -/
def nfStr2addr : Netstrfns → List Char → Nat → Option UInt32
  | lo => libcfsLoStr2addr
  | tcp => libcfsIpStr2addr
  | o2ib => libcfsIpStr2addr
  | gni => libcfsNumStr2addr
  | gip => libcfsIpStr2addr

end Netstrfns

/-! ## NIDs -/

/-- `libcfs_lnd2netstrfns(lnd)`: the entry of the type. -/
def libcfsLnd2netstrfns (lnd : UInt32) : Option Netstrfns :=
  libcfsNetstrfns.find? fun nf => nf.nfType == lnd

/-- `libcfs_isknown_lnd`. -/
def libcfsIsknownLnd (lnd : UInt32) : Bool := (libcfsLnd2netstrfns lnd).isSome

/-- `libcfs_nid2str_r(nid, buf, buf_size)`: the string left in `buf`. -/
def libcfsNid2strR (nid : UInt64) (bufSize : Nat) : List Char :=
  let addr := lnetNidaddr nid
  let net := lnetNidnet nid
  let nnum := lnetNetnum net
  let lnd := lnetNettyp net
  if nid = lnetNidAny then
    -- strncpy(buf, "<?>", buf_size) and a NUL in the last byte
    ['<', '?', '>'].take (bufSize - 1)
  else
    match libcfsLnd2netstrfns lnd with
    | none =>
      snprintf bufSize (Nat.toDigits 16 addr.toNat ++ '@' :: '<' :: Nat.toDigits 10 lnd.toNat ++ ':' ::
        Nat.toDigits 10 nnum.toNat ++ ['>'])
    | some nf =>
      let addrText := snprintf bufSize (nf.nfAddr2str addr)
      addrText ++ snprintf (bufSize - addrText.length)
        ('@' :: nf.nfName ++ if nnum = 0 then [] else Nat.toDigits 10 nnum.toNat)

/-- `libcfs_str2net_internal(str, &net)`: the entry whose name begins `str`,
and the network of the number after the name (0 when there is none). -/
def libcfsStr2netInternal (str : List Char) : Option (Netstrfns × UInt32) :=
  match libcfsNamenum2netstrfns str with
  | none => none
  | some nf =>
    let nob := nf.nfName.length
    if str.length = nob then some (nf, lnetMknet nf.nfType 0)
    -- a net number is not allowed after "lo"
    else if nf.nfType = lolnd then none
    else
      let rest := str.drop nob
      match scanExactly [.unsigned 10, .count] 1 rest rest.length with
      | some (netnum :: _) => some (nf, lnetMknet nf.nfType netnum)
      | _ => none

/-- `libcfs_str2nid(str)`: the network after the first `@` (`tcp` when there
is none) and the address before it; `LNET_NID_ANY` when either is not read.
Without an `@` the entry is `libcfs_lnd2netstrfns(SOCKLND)`, the `tcp` one
(`libcfsLnd2netstrfns_socklnd`). -/
def libcfsStr2nid (str : List Char) : UInt64 :=
  match str.findIdx? (· = '@') with
  | some sep =>
    match libcfsStr2netInternal (str.drop (sep + 1)) with
    | none => lnetNidAny
    | some (nf, net) =>
      match nf.nfStr2addr str sep with
      | some addr => lnetMknid net addr
      | none => lnetNidAny
  | none =>
    match Netstrfns.tcp.nfStr2addr str str.length with
    | some addr => lnetMknid (lnetMknet socklnd 0) addr
    | none => lnetNidAny

theorem libcfsLnd2netstrfns_socklnd : libcfsLnd2netstrfns socklnd = some .tcp := rfl

/-! ## The words of a NID -/

theorem toNat_lnetMknet (t n : UInt32) : (lnetMknet t n).toNat = t.toNat * 2 ^ 16 % 2 ^ 32 ||| n.toNat := by
  rw [lnetMknet, UInt32.toNat_or, UInt32.toNat_shiftLeft, show (16 : UInt32).toNat % 32 = 16 from rfl,
    Nat.shiftLeft_eq]

theorem toNat_lnetNettyp (net : UInt32) : (lnetNettyp net).toNat = net.toNat / 2 ^ 16 % 2 ^ 16 := by
  rw [lnetNettyp, UInt32.toNat_and, UInt32.toNat_shiftRight, show (16 : UInt32).toNat % 32 = 16 from rfl,
    show (0xffff : UInt32).toNat = 2 ^ 16 - 1 from rfl, Nat.and_two_pow_sub_one_eq_mod, Nat.shiftRight_eq_div_pow]

theorem toNat_lnetNetnum (net : UInt32) : (lnetNetnum net).toNat = net.toNat % 2 ^ 16 := by
  rw [lnetNetnum, UInt32.toNat_and, show (0xffff : UInt32).toNat = 2 ^ 16 - 1 from rfl,
    Nat.and_two_pow_sub_one_eq_mod]

theorem toNat_lnetMknid (net addr : UInt32) : (lnetMknid net addr).toNat = net.toNat * 2 ^ 32 + addr.toNat := by
  have := net.toNat_lt
  rw [lnetMknid, UInt64.toNat_or, UInt64.toNat_shiftLeft, show (32 : UInt64).toNat % 64 = 32 from rfl,
    Nat.shiftLeft_eq, UInt32.toNat_toUInt64, UInt32.toNat_toUInt64,
    Nat.mod_eq_of_lt (show net.toNat * 2 ^ 32 < 2 ^ 64 by omega), Nat.mul_two_pow_or_eq_add addr.toNat_lt]

theorem toNat_lnetNidaddr (nid : UInt64) : (lnetNidaddr nid).toNat = nid.toNat % 2 ^ 32 := by
  rw [lnetNidaddr, UInt64.toNat_toUInt32, UInt64.toNat_and, show (0xffffffff : UInt64).toNat = 2 ^ 32 - 1 from rfl,
    Nat.and_two_pow_sub_one_eq_mod, Nat.mod_mod]

theorem toNat_lnetNidnet (nid : UInt64) : (lnetNidnet nid).toNat = nid.toNat / 2 ^ 32 := by
  have := nid.toNat_lt
  rw [lnetNidnet, UInt64.toNat_toUInt32, UInt64.toNat_and, UInt64.toNat_shiftRight,
    show (0xffffffff : UInt64).toNat = 2 ^ 32 - 1 from rfl, Nat.and_two_pow_sub_one_eq_mod, Nat.mod_mod,
    show (32 : UInt64).toNat % 64 = 32 from rfl, Nat.shiftRight_eq_div_pow]
  omega

/-- A network is made of its type and number again. -/
theorem lnetMknet_lnetNettyp_lnetNetnum (net : UInt32) : lnetMknet (lnetNettyp net) (lnetNetnum net) = net := by
  apply UInt32.toNat_inj.mp
  have := net.toNat_lt
  have high : net.toNat / 2 ^ 16 % 2 ^ 16 * 2 ^ 16 < 2 ^ 32 := by omega
  rw [toNat_lnetMknet, toNat_lnetNettyp, toNat_lnetNetnum, Nat.mod_eq_of_lt high,
    Nat.mul_two_pow_or_eq_add (Nat.mod_lt _ (by decide))]
  omega

/-- A NID is made of its network and address again. -/
theorem lnetMknid_lnetNidnet_lnetNidaddr (nid : UInt64) : lnetMknid (lnetNidnet nid) (lnetNidaddr nid) = nid := by
  apply UInt64.toNat_inj.mp
  rw [toNat_lnetMknid, toNat_lnetNidnet, toNat_lnetNidaddr]
  omega

theorem lnetNidnet_lnetMknid (net addr : UInt32) : lnetNidnet (lnetMknid net addr) = net := by
  apply UInt32.toNat_inj.mp
  have := addr.toNat_lt
  rw [toNat_lnetNidnet, toNat_lnetMknid]
  omega

theorem lnetNidaddr_lnetMknid (net addr : UInt32) : lnetNidaddr (lnetMknid net addr) = addr := by
  apply UInt32.toNat_inj.mp
  have := addr.toNat_lt
  rw [toNat_lnetNidaddr, toNat_lnetMknid]
  omega

/-- The bits of a type survive in the type of every network made with it. -/
theorem testBit_lnetNettyp_lnetMknet {t : UInt32} (n : UInt32) {i : Nat} (below : i < 16)
    (small : t.toNat < 2 ^ 16) (set : t.toNat.testBit i = true) :
    (lnetNettyp (lnetMknet t n)).toNat.testBit i = true := by
  rw [toNat_lnetNettyp, toNat_lnetMknet, Nat.mod_eq_of_lt (show t.toNat * 2 ^ 16 < 2 ^ 32 by omega),
    Nat.testBit_mod_two_pow, Nat.testBit_div_two_pow, Nat.testBit_or, Nat.testBit_mul_two_pow,
    Nat.add_sub_cancel, set]
  simp [below]

/-- Only "lo" makes loopback networks: every other type has a bit that
`LOLND` lacks. -/
theorem lnetNettyp_lnetMknet_ne_lolnd {nf : Netstrfns} (other : nf ≠ .lo) (n : UInt32) :
    lnetNettyp (lnetMknet nf.nfType n) ≠ lolnd := by
  intro loopback
  have bitOf : ∀ i < 16, nf.nfType.toNat.testBit i = true → lolnd.toNat.testBit i = true := fun i below set => by
    rw [← loopback]
    exact testBit_lnetNettyp_lnetMknet n below (by cases nf <;> decide) set
  cases nf with
  | lo => exact other rfl
  | tcp => exact absurd (bitOf 1 (by decide) (by decide)) (by decide)
  | o2ib => exact absurd (bitOf 2 (by decide) (by decide)) (by decide)
  | gni => exact absurd (bitOf 2 (by decide) (by decide)) (by decide)
  | gip => exact absurd (bitOf 1 (by decide) (by decide)) (by decide)

/-! ## Printed addresses -/

/-- `%u` prints digits only. -/
theorem ne_of_mem_printU {v : UInt32} {c : Char} (mem : c ∈ printU v) :
    c ≠ '@' ∧ c ≠ '.' ∧ c ≠ 'x' ∧ c ≠ 'X' := by
  obtain ⟨d, digit, rfl⟩ := digit_of_mem_toDigits mem
  interval_cases d <;> decide

theorem toNat_and_0xff (x : UInt32) : (x &&& 0xff).toNat = x.toNat % 2 ^ 8 := by
  rw [UInt32.toNat_and, show (0xff : UInt32).toNat = 2 ^ 8 - 1 from rfl, Nat.and_two_pow_sub_one_eq_mod]

theorem length_printU_octet (x : UInt32) : (printU (x &&& 0xff)).length ≤ 3 := by
  have := Nat.mod_lt x.toNat (show 2 ^ 8 > 0 by decide)
  exact Nat.toDigits_length 10 _ 3 (by decide) (by rw [toNat_and_0xff]; omega)

theorem at_not_mem_nfAddr2str (nf : Netstrfns) (addr : UInt32) : '@' ∉ nf.nfAddr2str addr := by
  have noAt : ∀ v : UInt32, '@' ∉ printU v := fun v printed => (ne_of_mem_printU printed).1 rfl
  unfold Netstrfns.nfAddr2str libcfsIpAddr2str libcfsDecnumAddr2str
  split
  · simp [noAt]
  · exact noAt addr

/-- An address prints in at most 15 characters. -/
theorem length_nfAddr2str_le (nf : Netstrfns) (addr : UInt32) : (nf.nfAddr2str addr).length ≤ 15 := by
  unfold Netstrfns.nfAddr2str libcfsIpAddr2str libcfsDecnumAddr2str
  split
  · have := length_printU_octet (addr >>> 24)
    have := length_printU_octet (addr >>> 16)
    have := length_printU_octet (addr >>> 8)
    have := length_printU_octet addr
    simp only [List.length_append, List.length_cons]
    omega
  · have := Nat.toDigits_length 10 addr.toNat 10 (by decide) (by have := addr.toNat_lt; omega)
    exact Nat.le_trans this (by decide)

/-- A byte of a word, as `(x >> k) & 0xff` takes it. -/
theorem toNat_shiftRight_and_0xff (x : UInt32) {k : UInt32} {n : Nat} (shift : k.toNat = n) (small : n < 32) :
    ((x >>> k) &&& 0xff).toNat = x.toNat / 2 ^ n % 2 ^ 8 := by
  rw [toNat_and_0xff, UInt32.toNat_shiftRight, shift, Nat.mod_eq_of_lt small, Nat.shiftRight_eq_div_pow]

/-- A byte shifted left stays inside the word. -/
theorem toNat_shiftLeft_of_fits {x k : UInt32} {n : Nat} (shift : k.toNat = n) (small : n < 32)
    (fits : x.toNat * 2 ^ n < 2 ^ 32) : (x <<< k).toNat = x.toNat * 2 ^ n := by
  rw [UInt32.toNat_shiftLeft, shift, Nat.mod_eq_of_lt small, Nat.shiftLeft_eq, Nat.mod_eq_of_lt fits]

/-- The four bytes of an address, shifted back into place, are the address. -/
theorem ipOctets_reassemble (addr : UInt32) :
    ((addr >>> 24) &&& 0xff) <<< 24 ||| ((addr >>> 16) &&& 0xff) <<< 16 ||| ((addr >>> 8) &&& 0xff) <<< 8 |||
      (addr &&& 0xff) = addr := by
  apply UInt32.toNat_inj.mp
  have := addr.toNat_lt
  have o24 := toNat_shiftRight_and_0xff addr (show (24 : UInt32).toNat = 24 from rfl) (by decide)
  have o16 := toNat_shiftRight_and_0xff addr (show (16 : UInt32).toNat = 16 from rfl) (by decide)
  have o8 := toNat_shiftRight_and_0xff addr (show (8 : UInt32).toNat = 8 from rfl) (by decide)
  have low := toNat_and_0xff addr
  simp only [UInt32.toNat_or]
  rw [toNat_shiftLeft_of_fits (show (24 : UInt32).toNat = 24 from rfl) (by decide) (by rw [o24]; omega),
    toNat_shiftLeft_of_fits (show (16 : UInt32).toNat = 16 from rfl) (by decide) (by rw [o16]; omega),
    toNat_shiftLeft_of_fits (show (8 : UInt32).toNat = 8 from rfl) (by decide) (by rw [o8]; omega),
    o24, o16, o8, low, Nat.or_assoc, Nat.or_assoc]
  -- or-ing disjoint bytes adds them, from the lowest up
  have lowTwo : addr.toNat / 2 ^ 8 % 2 ^ 8 * 2 ^ 8 ||| addr.toNat % 2 ^ 8 =
      addr.toNat / 2 ^ 8 % 2 ^ 8 * 2 ^ 8 + addr.toNat % 2 ^ 8 :=
    Nat.mul_two_pow_or_eq_add (Nat.mod_lt _ (by decide))
  have lowThree : addr.toNat / 2 ^ 16 % 2 ^ 8 * 2 ^ 16 |||
      (addr.toNat / 2 ^ 8 % 2 ^ 8 * 2 ^ 8 + addr.toNat % 2 ^ 8) =
      addr.toNat / 2 ^ 16 % 2 ^ 8 * 2 ^ 16 + (addr.toNat / 2 ^ 8 % 2 ^ 8 * 2 ^ 8 + addr.toNat % 2 ^ 8) :=
    Nat.mul_two_pow_or_eq_add (by omega)
  rw [lowTwo, lowThree, Nat.mul_two_pow_or_eq_add (by omega)]
  omega

/-! ## Reading addresses back -/

/-- `"%u.%u.%u.%u%n"` reads a printed address back as its four bytes, and
counts its length. -/
theorem vsscanf_libcfsIpAddr2str (addr : UInt32) {tail : List Char} (stops : Stops 10 tail) :
    vsscanf ipAddrFormat (libcfsIpAddr2str addr ++ tail) 0 =
      ([(addr >>> 24) &&& 0xff, (addr >>> 16) &&& 0xff, (addr >>> 8) &&& 0xff, addr &&& 0xff],
        some (libcfsIpAddr2str addr).length) := by
  have dot : ∀ s, Stops 10 ('.' :: s) := stops_cons (by decide)
  simp only [libcfsIpAddr2str, printU_eq, ipAddrFormat, List.append_assoc, List.cons_append]
  rw [vsscanf_unsigned_toDigits _ _ (dot _), vsscanf_literal, vsscanf_unsigned_toDigits _ _ (dot _), vsscanf_literal,
    vsscanf_unsigned_toDigits _ _ (dot _), vsscanf_literal, vsscanf_unsigned_toDigits _ _ stops, vsscanf_count]
  simp only [UInt32.ofNat_toNat, List.length_append, List.length_cons]
  congr 2
  omega

theorem libcfsIpStr2addr_libcfsIpAddr2str (addr : UInt32) {tail : List Char} (stops : Stops 10 tail) :
    libcfsIpStr2addr (libcfsIpAddr2str addr ++ tail) (libcfsIpAddr2str addr).length = some addr := by
  have byte : ∀ x : UInt32, (x &&& 0xff) &&& ~~~0xff = 0 := fun x => by
    rw [UInt32.and_assoc, show (0xff : UInt32) &&& ~~~0xff = 0 by decide, UInt32.and_zero]
  rw [libcfsIpStr2addr, scanExactly_of_vsscanf (vsscanf_libcfsIpAddr2str addr stops) (by simp)]
  dsimp only
  rw [if_pos ⟨byte _, byte _, byte _, byte _⟩, ipOctets_reassemble]

/-- A printed number followed by `@` does not begin with `0x` or `0X`. -/
theorem vsscanf_hex_printU (v : UInt32) (rest : List Char) {x : Char} (hexMark : x = 'x' ∨ x = 'X') :
    vsscanf [.literal '0', .literal x, .unsigned 16, .count] (printU v ++ '@' :: rest) 0 = ([], none) := by
  have digitsOnly : ∀ d ∈ printU v, d ≠ x := fun d mem => by
    rcases hexMark with rfl | rfl
    exacts [(ne_of_mem_printU mem).2.2.1, (ne_of_mem_printU mem).2.2.2]
  obtain ⟨c, more, text⟩ := List.exists_cons_of_ne_nil (toDigits_ne_nil v.toNat)
  have firstPrinted : ∀ d ∈ more, d ∈ printU v := fun d mem => by
    rw [printU_eq, text]
    exact List.mem_cons_of_mem c mem
  rw [printU_eq, text, List.cons_append]
  by_cases zero : c = '0'
  · -- only the number 0 prints a leading 0, and `@` or a digit follows it
    rw [zero, vsscanf_literal]
    cases more with
    | nil => exact vsscanf_literal_of_ne (by rcases hexMark with rfl | rfl <;> decide) _ _ _
    | cons d more => exact vsscanf_literal_of_ne (digitsOnly d (firstPrinted d List.mem_cons_self)) _ _ _
  · exact vsscanf_literal_of_ne zero _ _ _

theorem libcfsNumStr2addr_libcfsDecnumAddr2str (addr : UInt32) (rest : List Char) :
    libcfsNumStr2addr (libcfsDecnumAddr2str addr ++ '@' :: rest) (libcfsDecnumAddr2str addr).length = some addr := by
  have decimal : vsscanf [.unsigned 10, .count] (printU addr ++ '@' :: rest) 0 = ([addr], some (printU addr).length) := by
    rw [printU_eq, vsscanf_unsigned_toDigits _ _ (stops_cons (by decide) rest), vsscanf_count, UInt32.ofNat_toNat,
      Nat.zero_add]
  rw [libcfsNumStr2addr, libcfsDecnumAddr2str,
    scanExactly_eq_none_of_vsscanf (vsscanf_hex_printU addr rest (.inl rfl)) Nat.one_pos]
  dsimp only
  rw [scanExactly_eq_none_of_vsscanf (vsscanf_hex_printU addr rest (.inr rfl)) Nat.one_pos]
  dsimp only
  rw [scanExactly_of_vsscanf decimal (by simp)]

/-- Every entry reads back the addresses it prints, "lo" only its one. -/
theorem nfStr2addr_nfAddr2str (nf : Netstrfns) {addr : UInt32} (loopback : nf = .lo → addr = 0)
    (rest : List Char) :
    nf.nfStr2addr (nf.nfAddr2str addr ++ '@' :: rest) (nf.nfAddr2str addr).length = some addr := by
  cases nf with
  | lo =>
    rw [loopback rfl]
    rfl
  | tcp => exact libcfsIpStr2addr_libcfsIpAddr2str addr (stops_cons (by decide) rest)
  | o2ib => exact libcfsIpStr2addr_libcfsIpAddr2str addr (stops_cons (by decide) rest)
  | gni => exact libcfsNumStr2addr_libcfsDecnumAddr2str addr rest
  | gip => exact libcfsIpStr2addr_libcfsIpAddr2str addr (stops_cons (by decide) rest)

/-! ## Reading networks back -/

theorem libcfsNamenum2netstrfns_nfName (nf : Netstrfns) (rest : List Char) :
    libcfsNamenum2netstrfns (nf.nfName ++ rest) = some nf := by
  cases nf <;> rfl

theorem eq_lo_of_nfType_eq_lolnd {nf : Netstrfns} (loopback : nf.nfType = lolnd) : nf = .lo := by
  cases nf
  all_goals first | rfl | exact absurd loopback (by decide)

/-- `libcfs_str2net_internal` reads back the network text `libcfs_nid2str_r`
prints after the `@`. -/
theorem libcfsStr2netInternal_printed (nf : Netstrfns) {nnum : UInt32} (loopback : nf = .lo → nnum = 0) :
    libcfsStr2netInternal (nf.nfName ++ if nnum = 0 then [] else printU nnum) =
      some (nf, lnetMknet nf.nfType nnum) := by
  rw [libcfsStr2netInternal, libcfsNamenum2netstrfns_nfName]
  dsimp only
  by_cases zero : nnum = 0
  · rw [if_pos zero, List.append_nil, if_pos rfl, zero]
  · have other : nf.nfType ≠ lolnd := fun isLo => zero (loopback (eq_lo_of_nfType_eq_lolnd isLo))
    have printed : (printU nnum).length ≠ 0 := fun empty => toDigits_ne_nil _ (List.eq_nil_of_length_eq_zero empty)
    have decimal : vsscanf [.unsigned 10, .count] (printU nnum) 0 = ([nnum], some (printU nnum).length) := by
      have scanned := vsscanf_unsigned_toDigits [.count] nnum.toNat (stops_nil 10) 0
      rw [List.append_nil] at scanned
      rw [printU_eq, scanned, vsscanf_count, UInt32.ofNat_toNat, Nat.zero_add]
    rw [if_neg zero, if_neg (by rw [List.length_append]; omega), if_neg other, List.drop_left,
      scanExactly_of_vsscanf decimal (by simp)]

/-- What `libcfs_str2net_internal` gives is a network of the entry's type; a
loopback one has number 0. -/
theorem libcfsStr2netInternal_spec {str : List Char} {nf : Netstrfns} {net : UInt32}
    (found : libcfsStr2netInternal str = some (nf, net)) :
    ∃ netnum, net = lnetMknet nf.nfType netnum ∧ (nf = .lo → netnum = 0) := by
  unfold libcfsStr2netInternal at found
  split at found
  · cases found
  · rename_i nf' _
    dsimp only at found
    split_ifs at found with whole loopback
    · cases found
      exact ⟨0, rfl, fun _ => rfl⟩
    · split at found
      · cases found
        exact ⟨_, rfl, fun isLo => absurd (congrArg Netstrfns.nfType isLo) loopback⟩
      · cases found

/-! ## The round trip -/

/-- The first `@` of a printed NID is the one after its address. -/
theorem findIdx_at_nfAddr2str (nf : Netstrfns) (addr : UInt32) (rest : List Char) :
    (nf.nfAddr2str addr ++ '@' :: rest).findIdx? (· = '@') = some (nf.nfAddr2str addr).length := by
  rw [List.findIdx?_append, List.findIdx?_eq_none_iff.mpr fun c mem => by
    simpa using fun isAt : c = '@' => at_not_mem_nfAddr2str nf addr (isAt ▸ mem)]
  simp [List.findIdx?_cons]

/-- `libcfs_nid2str_r` prints a NID of a known type in full into
`LNET_NIDSTR_SIZE` bytes. -/
theorem libcfsNid2strR_of_known {nid : UInt64} (notAny : nid ≠ lnetNidAny) {nf : Netstrfns}
    (known : libcfsLnd2netstrfns (lnetNettyp (lnetNidnet nid)) = some nf) :
    libcfsNid2strR nid lnetNidstrSize = nf.nfAddr2str (lnetNidaddr nid) ++ '@' :: (nf.nfName ++
      if lnetNetnum (lnetNidnet nid) = 0 then [] else printU (lnetNetnum (lnetNidnet nid))) := by
  have addrShort := length_nfAddr2str_le nf (lnetNidaddr nid)
  have nameShort : nf.nfName.length ≤ 4 := by cases nf <;> decide
  have numShort : (if lnetNetnum (lnetNidnet nid) = 0 then [] else
      Nat.toDigits 10 (lnetNetnum (lnetNidnet nid)).toNat).length ≤ 5 := by
    split
    · exact Nat.zero_le _
    · have := Nat.mod_lt (lnetNidnet nid).toNat (show 2 ^ 16 > 0 by decide)
      exact Nat.toDigits_length 10 _ 5 (by decide) (by rw [toNat_lnetNetnum]; omega)
  rw [libcfsNid2strR, if_neg notAny, known]
  dsimp only
  rw [snprintf, List.take_of_length_le (by unfold lnetNidstrSize; omega), snprintf,
    List.take_of_length_le (by simp only [List.length_cons, List.length_append]; unfold lnetNidstrSize; omega)]
  rfl

/-- Every NID of a known type reads back from its string, a loopback NID
being `0@lo`. -/
theorem libcfsStr2nid_libcfsNid2strR {nid : UInt64} (notAny : nid ≠ lnetNidAny) {nf : Netstrfns}
    (known : libcfsLnd2netstrfns (lnetNettyp (lnetNidnet nid)) = some nf)
    (loopback : nf = .lo → lnetNetnum (lnetNidnet nid) = 0 ∧ lnetNidaddr nid = 0) :
    libcfsStr2nid (libcfsNid2strR nid lnetNidstrSize) = nid := by
  have typed : nf.nfType = lnetNettyp (lnetNidnet nid) := by simpa using List.find?_some known
  rw [libcfsNid2strR_of_known notAny known, libcfsStr2nid, findIdx_at_nfAddr2str]
  dsimp only
  rw [show ∀ (front rest : List Char), (front ++ '@' :: rest).drop (front.length + 1) = rest by simp,
    libcfsStr2netInternal_printed nf fun isLo => (loopback isLo).1]
  dsimp only
  rw [nfStr2addr_nfAddr2str nf fun isLo => (loopback isLo).2]
  dsimp only
  rw [typed, lnetMknet_lnetNettyp_lnetNetnum, lnetMknid_lnetNidnet_lnetNidaddr]

/-- What `libcfs_str2nid` reads, when it reads a NID, is an address on a
network of some entry's type; a loopback one is `0@lo`. -/
theorem libcfsStr2nid_cases {str : List Char} (read : libcfsStr2nid str ≠ lnetNidAny) :
    ∃ (nf : Netstrfns) (netnum addr : UInt32), libcfsStr2nid str = lnetMknid (lnetMknet nf.nfType netnum) addr ∧
      (nf = .lo → netnum = 0 ∧ addr = 0) := by
  generalize nidOf : libcfsStr2nid str = nid at read ⊢
  unfold libcfsStr2nid at nidOf
  split at nidOf
  · split at nidOf
    · exact absurd nidOf.symm read
    · rename_i nf net found
      obtain ⟨netnum, rfl, loNumber⟩ := libcfsStr2netInternal_spec found
      split at nidOf
      · rename_i addr parsed
        refine ⟨nf, netnum, addr, nidOf.symm, fun isLo => ⟨loNumber isLo, ?_⟩⟩
        -- `libcfs_lo_str2addr` reads every address as 0
        subst isLo
        exact (Option.some.inj parsed).symm
      · exact absurd nidOf.symm read
  · split at nidOf
    · rename_i addr _
      exact ⟨.tcp, 0, addr, nidOf.symm, fun isLo => nomatch isLo⟩
    · exact absurd nidOf.symm read

/-- NID strings round trip: a NID of a known type other than "lo" reads back
from its string, and so does every NID `libcfs_str2nid` reads whose type is
known. -/
theorem libcfsStr2nid_libcfsNid2strR_round_trip :
    (∀ nid : UInt64, nid ≠ lnetNidAny →
      lnetNettyp (lnetNidnet nid) ∈ [socklnd, o2iblnd, gnilnd, gniiplnd] →
      libcfsStr2nid (libcfsNid2strR nid lnetNidstrSize) = nid) ∧
    (∀ str : List Char, libcfsStr2nid str ≠ lnetNidAny →
      libcfsIsknownLnd (lnetNettyp (lnetNidnet (libcfsStr2nid str))) = true →
      libcfsStr2nid (libcfsNid2strR (libcfsStr2nid str) lnetNidstrSize) = libcfsStr2nid str) := by
  constructor
  · intro nid notAny lnd
    have entry : ∃ nf, libcfsLnd2netstrfns (lnetNettyp (lnetNidnet nid)) = some nf ∧ nf ≠ .lo := by
      simp only [List.mem_cons, List.not_mem_nil, or_false] at lnd
      rcases lnd with typed | typed | typed | typed <;> rw [typed]
      exacts [⟨.tcp, rfl, nofun⟩, ⟨.o2ib, rfl, nofun⟩, ⟨.gni, rfl, nofun⟩, ⟨.gip, rfl, nofun⟩]
    obtain ⟨nf, known, other⟩ := entry
    exact libcfsStr2nid_libcfsNid2strR notAny known fun isLo => absurd isLo other
  · intro str read known
    obtain ⟨nf', known'⟩ := Option.isSome_iff_exists.mp known
    obtain ⟨nf, netnum, addr, parsed, loopback⟩ := libcfsStr2nid_cases read
    rw [parsed] at read known' ⊢
    apply libcfsStr2nid_libcfsNid2strR read known'
    -- a loopback type comes only from "lo", whose NIDs are `0@lo`
    intro isLo
    subst isLo
    have typed : lnetNettyp (lnetMknet nf.nfType netnum) = lolnd := by
      rw [lnetNidnet_lnetMknid] at known'
      have found := List.find?_some known'
      rw [beq_iff_eq] at found
      exact found.symm
    have fromLo : nf = .lo := Classical.byContradiction fun other =>
      lnetNettyp_lnetMknet_ne_lolnd other netnum typed
    obtain ⟨zeroNumber, zeroAddr⟩ := loopback fromLo
    subst fromLo zeroNumber zeroAddr
    exact ⟨by decide, lnetNidaddr_lnetMknid _ _⟩

/-- A NID of `tcp` at 192.168.0.1 on network 2, and the string `5@gni`. -/
theorem libcfsStr2nid_libcfsNid2strR_round_trip_on_tcp2 :
    ((0x00020002C0A80001 : UInt64) ≠ lnetNidAny ∧
      lnetNettyp (lnetNidnet 0x00020002C0A80001) ∈ [socklnd, o2iblnd, gnilnd, gniiplnd] ∧
      libcfsStr2nid (libcfsNid2strR 0x00020002C0A80001 lnetNidstrSize) = 0x00020002C0A80001) ∧
    (libcfsStr2nid ['5', '@', 'g', 'n', 'i'] ≠ lnetNidAny ∧
      libcfsIsknownLnd (lnetNettyp (lnetNidnet (libcfsStr2nid ['5', '@', 'g', 'n', 'i']))) = true ∧
      libcfsStr2nid (libcfsNid2strR (libcfsStr2nid ['5', '@', 'g', 'n', 'i']) lnetNidstrSize) =
        libcfsStr2nid ['5', '@', 'g', 'n', 'i']) :=
  ⟨⟨by decide, by decide, libcfsStr2nid_libcfsNid2strR_round_trip.1 _ (by decide) (by decide)⟩,
    ⟨by decide, by decide, libcfsStr2nid_libcfsNid2strR_round_trip.2 _ (by decide) (by decide)⟩⟩

/-- `1.2.3.4@tcp65536` reads as a NID of type 3 (`65536` is or-ed into the
type's bits), which no entry has: it prints as `1020304@<3:0>`, and that reads
as `LNET_NID_ANY`. -/
theorem libcfsStr2nid_netnum_overflows_type :
    libcfsStr2nid ['1', '.', '2', '.', '3', '.', '4', '@', 't', 'c', 'p', '6', '5', '5', '3', '6'] =
        0x0003000001020304 ∧ (0x0003000001020304 : UInt64) ≠ lnetNidAny ∧
      libcfsNid2strR 0x0003000001020304 lnetNidstrSize = ['1', '0', '2', '0', '3', '0', '4', '@', '<', '3', ':', '0', '>'] ∧
      libcfsStr2nid ['1', '0', '2', '0', '3', '0', '4', '@', '<', '3', ':', '0', '>'] = lnetNidAny := by
  decide

end Lnet
end Lustre
