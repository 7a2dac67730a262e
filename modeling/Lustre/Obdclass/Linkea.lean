import Mathlib.Data.List.Basic
import Lustre.Library.Bytes
import Lustre.Library.Loop

/-!
# Link extended attributes

The link xattr of an object (obdclass/linkea.c, lustre_linkea.h) lists the names
the object has in its parent directories: a header of 24 bytes (magic, record
count and total length, in host order, then padding) and records of a two-byte
big-endian length, the parent fid and the name, one after the other.  The
writers are `linkea_data_new` and `linkea_add_buf`, whose buffer
`mdd_links_write` stores up to the total length; the readers walk the records by
their lengths: `linkea_links_find`, `linkea_first_entry`/`linkea_next_entry`,
and LFSCK's `lfsck_namespace_filter_linkea_entry`, which may also delete records
with `linkea_del_buf`.

A buffer is a list of bytes, and a read outside it is `none`.  On what the
writers produce the readers stay inside and end, and compute what they are for.
`linkea_init`, which admits what a reader gets from disk, checks only the magic
and that the count is not zero: the total length and the record lengths are
taken as they are, and a short value or a record of length zero make the
readers read past the value or walk forever.
-/

namespace Lustre
namespace Obdclass

open Bytes

/-! ## Layout -/

/-- `LINK_EA_MAGIC`. -/
def linkEaMagic : Nat := 0x11EAF1DF

/-- `__swab32(LINK_EA_MAGIC)`: the magic as a host of the other byte order wrote it. -/
def linkEaMagicSwabbed : Nat := 0xDFF1EA11

/-- `sizeof(struct link_ea_header)`. -/
def linkEaHeaderSize : Nat := 24

/-- `sizeof(struct link_ea_entry)`: the record length and the parent fid. -/
def linkEaEntrySize : Nat := 18

/-- `PAGE_CACHE_SIZE`, the size the link buffers are first allocated with. -/
def pageCacheSize : Nat := 4096

def einval : Int := 22
def enoent : Int := 2
def enodata : Int := 61

/-- The header as the writers keep it: magic, record count, total length and
the padding words, which nothing reads. -/
def linkEaHeader (reccount len : Nat) (padding : List UInt8) : List UInt8 :=
  encodeLe 4 linkEaMagic ++ encodeLe 4 reccount ++ encodeLe 8 len ++ padding

theorem linkEaHeader_eq (reccount len : Nat) (padding : List UInt8) :
    linkEaHeader reccount len padding =
      encodeLe 4 linkEaMagic ++ encodeLe 4 reccount ++ encodeLe 8 len ++ padding := rfl

/-- A link: the name in the parent directory and the parent fid in the
big-endian form `linkea_entry_pack` stores.  Names hold no NUL byte, so
`strncmp` on them is equality. -/
structure Link where
  name : List UInt8
  pfid : List UInt8
  pfid_length : pfid.length = 16
  reclen_lt : linkEaEntrySize + name.length < 2 ^ 16
  deriving DecidableEq

/-- The length of the record of a link. -/
def Link.reclen (link : Link) : Nat := linkEaEntrySize + link.name.length

theorem Link.reclen_eq (link : Link) : link.reclen = linkEaEntrySize + link.name.length := rfl

/-- `struct linkea_data`: the buffer, whose header `ld_leh` is at offset 0, the
current record `ld_lee` (`NULL` is `none`) and its length `ld_reclen`. -/
structure LinkeaData where
  ldBuf : List UInt8
  ldLee : Option Nat
  ldReclen : Nat
  deriving DecidableEq

/-! ## Writers -/

/-- `linkea_entry_pack`: the record length, most significant byte first, the
parent fid and the name. -/
def linkeaEntryPack (link : Link) : List UInt8 :=
  encodeBe 2 link.reclen ++ link.pfid ++ link.name

theorem linkeaEntryPack_eq (link : Link) :
    linkeaEntryPack link = encodeBe 2 link.reclen ++ link.pfid ++ link.name := rfl

/-- `linkea_data_new`: a buffer of at least `PAGE_CACHE_SIZE` bytes (a buffer too
small is given up for a fresh zeroed one) with an empty header. -/
def linkeaDataNew (buf : List UInt8) : LinkeaData :=
  let buf := if buf.length < pageCacheSize then List.replicate pageCacheSize 0 else buf
  let buf := overwrite buf 0 (encodeLe 4 linkEaMagic)
  let buf := overwrite buf 8 (encodeLe 8 linkEaHeaderSize)
  let buf := overwrite buf 4 (encodeLe 4 0)
  ⟨buf, none, 0⟩

/-- `linkea_add_buf`: pack the record at the end of the records (the buffer
grows as needed), add its length to `leh_len` and count it. -/
def linkeaAddBuf (ld : LinkeaData) (link : Link) : Option LinkeaData := do
  let len ← readLe ld.ldBuf 8 8
  let reccount ← readLe ld.ldBuf 4 4
  let record := linkeaEntryPack link
  let buf := overwrite ld.ldBuf len record
  let buf := overwrite buf 8 (encodeLe 8 (len + record.length))
  let buf := overwrite buf 4 (encodeLe 4 (reccount + 1))
  return ⟨buf, some len, record.length⟩

/-- `linkea_del_buf` of the record at `lee`: uncount it, take its length off
`leh_len` and move the records after it down.  A record that ends past `leh_len`
makes the move's length negative, a huge `size_t`. -/
def linkeaDelBuf (ld : LinkeaData) (lee : Nat) : Option LinkeaData := do
  let reccount ← readLe ld.ldBuf 4 4
  let len ← readLe ld.ldBuf 8 8
  let len := (len + 2 ^ 64 - ld.ldReclen) % 2 ^ 64
  let buf := overwrite ld.ldBuf 4 (encodeLe 4 (reccount + 2 ^ 32 - 1))
  let buf := overwrite buf 8 (encodeLe 8 len)
  if len < lee then none
  let moved ← slice buf (lee + ld.ldReclen) (len - lee)
  let buf := overwrite buf lee moved
  return { ld with ldBuf := buf, ldLee := if len ≤ lee then none else some lee }

/-! ## Readers -/

/-- The header turned around in place by `linkea_init` when another byte order
wrote it: the magic set, the count and the length swabbed. -/
def swabHeader (buf : List UInt8) : Option (List UInt8) := do
  let reccount ← slice buf 4 4
  let len ← slice buf 8 8
  return encodeLe 4 linkEaMagic ++ reccount.reverse ++ len.reverse ++ buf.drop 16

/-- `linkea_init`: admit a value read from disk when its magic is right and it
counts at least one record. -/
def linkeaInit (ld : LinkeaData) : Option (Except Int LinkeaData) := do
  let magic ← readLe ld.ldBuf 0 4
  let buf ← if magic = linkEaMagicSwabbed then swabHeader ld.ldBuf else some ld.ldBuf
  let magic ← readLe buf 0 4
  if magic ≠ linkEaMagic then return .error (-einval)
  let reccount ← readLe buf 4 4
  if reccount = 0 then return .error (-enodata)
  return .ok { ld with ldBuf := buf }

/-- `linkea_entry_unpack`: the record length and the parent fid of the record at
`lee`. -/
def linkeaEntryUnpack (buf : List UInt8) (lee : Nat) : Option (Nat × List UInt8) := do
  let reclen ← readBe buf lee 2
  let pfid ← slice buf (lee + 2) 16
  return (reclen, pfid)

/-- The test of `linkea_links_find` on the record at `lee`: the name length
(`reclen - 18`, an `int`), the parent and then the name bytes. -/
def linkeaEntryMatches (buf : List UInt8) (lee reclen : Nat) (pfid : List UInt8)
    (key : Link) : Option Bool :=
  if (reclen : Int) - linkEaEntrySize = key.name.length ∧ pfid = key.pfid then
    (slice buf (lee + linkEaEntrySize) key.name.length).map (· = key.name)
  else some false

/-- The loop of `linkea_links_find`: `count` records left, the current one at
`lee`; the record that names `key`, with its length, or none. -/
def linksFindFrom (buf : List UInt8) (key : Link) : Nat → Nat → Option (Option (Nat × Nat))
  | 0, _ => some none
  | count + 1, lee => do
    let (reclen, pfid) ← linkeaEntryUnpack buf lee
    if ← linkeaEntryMatches buf lee reclen pfid key then return some (lee, reclen)
    linksFindFrom buf key count (lee + reclen)

/-- `linkea_links_find`: 0 and the record of `key` made current, or `-ENOENT`
and no current record. -/
def linkeaLinksFind (ld : LinkeaData) (key : Link) : Option (Int × LinkeaData) := do
  let reccount ← readLe ld.ldBuf 4 4
  match ← linksFindFrom ld.ldBuf key reccount linkEaHeaderSize with
  | some (lee, reclen) => return (0, { ld with ldLee := some lee, ldReclen := reclen })
  | none => return (-enoent, { ld with ldLee := none, ldReclen := 0 })

/-- `linkea_first_entry`. -/
def linkeaFirstEntry (ld : LinkeaData) : Option LinkeaData := do
  let reccount ← readLe ld.ldBuf 4 4
  return { ld with ldLee := if reccount = 0 then none else some linkEaHeaderSize }

/-- `linkea_next_entry`: step over the current record; past `leh_len` there is
no current record. -/
def linkeaNextEntry (ld : LinkeaData) : Option LinkeaData :=
  match ld.ldLee with
  | none => some ld
  | some lee => do
    let len ← readLe ld.ldBuf 8 8
    return { ld with ldLee := if len ≤ lee + ld.ldReclen then none else some (lee + ld.ldReclen) }

/-- The state of the loop of `lfsck_namespace_filter_linkea_entry`: the link data
and the copies of the starting record met so far. -/
structure FilterState where
  ld : LinkeaData
  repeated : Nat
  deriving DecidableEq

/-- Step to the next record in the filter loop. -/
def filterNext (ld : LinkeaData) (repeated : Nat) : Option FilterState ⊕ FilterState :=
  match linkeaNextEntry ld with
  | none => .inl none
  | some ld => .inr ⟨ld, repeated⟩

/-- One round of the loop of `lfsck_namespace_filter_linkea_entry`, which started
from the record at `oldlee` of length `oldlen`: a record equal to it is a
repeat, which stops the loop or, when `remove`, is deleted. -/
def filterLinkeaBody (oldlee oldlen : Nat) (remove : Bool) (st : FilterState) :
    Option FilterState ⊕ FilterState :=
  match st.ld.ldLee with
  | none => .inl (some st)
  | some lee =>
    match readBe st.ld.ldBuf lee 2 with
    | none => .inl none
    | some reclen =>
      let ld := { st.ld with ldReclen := reclen }
      if reclen = oldlen then
        -- memcmp(ld_lee, oldlee, oldlen)
        match slice ld.ldBuf lee oldlen, slice ld.ldBuf oldlee oldlen with
        | some here, some old =>
          if here = old then
            if remove then
              match linkeaDelBuf ld lee with
              | none => .inl none
              | some ld => .inr ⟨ld, st.repeated + 1⟩
            else .inl (some ⟨ld, st.repeated + 1⟩)
          else filterNext ld st.repeated
        | _, _ => .inl none
      else filterNext ld st.repeated

/-- `lfsck_namespace_filter_linkea_entry`, run for at most `fuel` rounds: the
link data with the starting record current again, and the number of repeats.
The outer `none` is fuel run out, the inner one a read outside the buffer. -/
def lfsckNamespaceFilterLinkeaEntry (ld : LinkeaData) (remove : Bool) (fuel : Nat) :
    Option (Option (LinkeaData × Nat)) :=
  match ld.ldLee with
  | none => some (some (ld, 0))
  | some oldlee =>
    match linkeaNextEntry ld with
    | none => some none
    | some next =>
      (Loop.run (filterLinkeaBody oldlee ld.ldReclen remove) fuel ⟨next, 0⟩).map
        (Option.map fun st => ({ st.ld with ldLee := some oldlee, ldReclen := ld.ldReclen },
          st.repeated))

/-! ## Records laid out by the writers -/

/-- The records of `links`, one after the other. -/
def packAll (links : List Link) : List UInt8 := (links.map linkeaEntryPack).flatten

/-- The bytes the records of `links` take. -/
def recordsLength (links : List Link) : Nat := (links.map Link.reclen).sum

@[simp] theorem packAll_nil : packAll [] = [] := rfl

@[simp] theorem packAll_cons (link : Link) (links : List Link) :
    packAll (link :: links) = linkeaEntryPack link ++ packAll links := rfl

@[simp] theorem recordsLength_nil : recordsLength [] = 0 := rfl

@[simp] theorem recordsLength_cons (link : Link) (links : List Link) :
    recordsLength (link :: links) = link.reclen + recordsLength links := rfl

@[simp] theorem length_linkeaEntryPack (link : Link) :
    (linkeaEntryPack link).length = link.reclen := by
  simp only [linkeaEntryPack_eq, List.length_append, length_encodeBe, link.pfid_length, Link.reclen_eq,
    linkEaEntrySize]

@[simp] theorem length_packAll (links : List Link) : (packAll links).length = recordsLength links := by
  induction links with
  | nil => rfl
  | cons link links ih => simp [ih]

theorem recordsLength_append (first second : List Link) :
    recordsLength (first ++ second) = recordsLength first + recordsLength second := by
  simp [recordsLength]

theorem packAll_append (first second : List Link) :
    packAll (first ++ second) = packAll first ++ packAll second := by
  simp [packAll]

theorem linkEaEntrySize_le_reclen (link : Link) : linkEaEntrySize ≤ link.reclen :=
  Nat.le_add_right _ _

@[simp] theorem length_linkEaHeader (reccount len : Nat) {padding : List UInt8}
    (paddingLength : padding.length = 8) :
    (linkEaHeader reccount len padding).length = linkEaHeaderSize := by
  simp [linkEaHeader_eq, paddingLength, linkEaHeaderSize]

/-- Two links with the same record are the same link. -/
theorem linkeaEntryPack_injective {link other : Link}
    (same : linkeaEntryPack link = linkeaEntryPack other) : link = other := by
  have reclens : link.reclen = other.reclen := by
    rw [← length_linkeaEntryPack, same, length_linkeaEntryPack]
  have lengths : (encodeBe 2 link.reclen ++ link.pfid).length =
      (encodeBe 2 other.reclen ++ other.pfid).length := by
    simp [link.pfid_length, other.pfid_length]
  obtain ⟨front, names⟩ := List.append_inj same lengths
  obtain ⟨-, pfids⟩ := List.append_inj front (by simp)
  cases link
  cases other
  simp_all

/-- The record length read at the start of a record. -/
theorem readBe_record (pre post : List UInt8) (link : Link) :
    readBe (pre ++ (linkeaEntryPack link ++ post)) pre.length 2 = some link.reclen := by
  rw [readBe_append_of_le (Nat.le_refl _), Nat.sub_self]
  simp only [linkeaEntryPack_eq, List.append_assoc, readBe_front]
  exact congrArg some (Nat.mod_eq_of_lt link.reclen_lt)

/-- A record read whole. -/
theorem slice_record (pre post : List UInt8) (link : Link) :
    slice (pre ++ (linkeaEntryPack link ++ post)) pre.length link.reclen =
      some (linkeaEntryPack link) := by
  rw [slice_append_of_le (Nat.le_refl _), Nat.sub_self, ← length_linkeaEntryPack]
  exact slice_front _ _

theorem linkeaEntryUnpack_record (pre post : List UInt8) (link : Link) :
    linkeaEntryUnpack (pre ++ (linkeaEntryPack link ++ post)) pre.length =
      some (link.reclen, link.pfid) := by
  have fid : slice (pre ++ (linkeaEntryPack link ++ post)) (pre.length + 2) 16 = some link.pfid := by
    rw [slice_append_of_le (by omega), Nat.add_sub_cancel_left]
    simp only [linkeaEntryPack_eq, List.append_assoc]
    rw [slice_append_of_le (by simp), length_encodeBe, Nat.sub_self, ← link.pfid_length]
    exact slice_front _ _
  simp [linkeaEntryUnpack, readBe_record, fid]

/-- The name of a record, after its fixed part. -/
theorem slice_record_name (pre post : List UInt8) (link : Link) :
    slice (pre ++ (linkeaEntryPack link ++ post)) (pre.length + linkEaEntrySize) link.name.length =
      some link.name := by
  rw [slice_append_of_le (by omega), Nat.add_sub_cancel_left]
  simp only [linkeaEntryPack_eq, List.append_assoc]
  rw [slice_append_of_le (by simp [linkEaEntrySize])]
  simp only [length_encodeBe, linkEaEntrySize]
  rw [slice_append_of_le (by simp [link.pfid_length]), link.pfid_length, Nat.sub_self]
  exact slice_front _ _

/-- The test of `linkea_links_find` on a record is equality of links. -/
theorem linkeaEntryMatches_record (pre post : List UInt8) (link key : Link) :
    linkeaEntryMatches (pre ++ (linkeaEntryPack link ++ post)) pre.length link.reclen link.pfid key =
      some (decide (link = key)) := by
  unfold linkeaEntryMatches
  by_cases lengths : link.name.length = key.name.length
  · have name : slice (pre ++ (linkeaEntryPack link ++ post)) (pre.length + linkEaEntrySize)
        key.name.length = some link.name := by
      rw [← lengths]
      exact slice_record_name pre post link
    have sameLength : (link.reclen : Int) - linkEaEntrySize = key.name.length := by
      simp only [Link.reclen_eq, Int.natCast_add, lengths]
      omega
    by_cases pfids : link.pfid = key.pfid
    · have iff : link = key ↔ link.name = key.name := by
        constructor
        · rintro rfl; rfl
        · intro names
          cases link
          cases key
          simp_all
      simp [sameLength, pfids, name, iff]
    · have differ : link ≠ key := fun same => pfids (same ▸ rfl)
      simp [pfids, differ]
  · have differ : link ≠ key := fun same => lengths (same ▸ rfl)
    have notSame : (link.reclen : Int) - linkEaEntrySize ≠ key.name.length := by
      simp only [Link.reclen_eq]
      omega
    simp [notSame, differ]

/-! ## The header -/

section Header

variable (reccount len : Nat) (padding rest : List UInt8)

@[simp] theorem readLe_linkEaHeader_magic :
    readLe (linkEaHeader reccount len padding ++ rest) 0 4 = some linkEaMagic := by
  simp [linkEaHeader_eq, List.append_assoc, linkEaMagic]

theorem readLe_linkEaHeader_reccount :
    readLe (linkEaHeader reccount len padding ++ rest) 4 4 = some (reccount % 2 ^ 32) := by
  simp only [linkEaHeader_eq, List.append_assoc]
  rw [readLe_append_of_le (by simp)]
  simp

theorem readLe_linkEaHeader_len :
    readLe (linkEaHeader reccount len padding ++ rest) 8 8 = some (len % 2 ^ 64) := by
  simp only [linkEaHeader_eq, List.append_assoc]
  rw [readLe_append_of_le (by simp), readLe_append_of_le (by simp)]
  simp

theorem overwrite_linkEaHeader_reccount (other : Nat) :
    overwrite (linkEaHeader reccount len padding ++ rest) 4 (encodeLe 4 other) =
      linkEaHeader other len padding ++ rest := by
  simp only [linkEaHeader_eq, List.append_assoc]
  rw [overwrite_append_of_le _ (by simp)]
  simp [overwrite_front]

theorem overwrite_linkEaHeader_len (other : Nat) :
    overwrite (linkEaHeader reccount len padding ++ rest) 8 (encodeLe 8 other) =
      linkEaHeader reccount other padding ++ rest := by
  simp only [linkEaHeader_eq, List.append_assoc]
  rw [overwrite_append_of_le _ (by simp), overwrite_append_of_le _ (by simp)]
  simp [overwrite_front]

theorem linkEaHeader_reccount_mod :
    linkEaHeader (reccount % 2 ^ 32) len padding = linkEaHeader reccount len padding := by
  have width : (2 : Nat) ^ 32 = 256 ^ 4 := by decide
  simp only [linkEaHeader_eq, width, encodeLe_mod]

end Header

theorem readLe_linkEaHeader_reccount_of_lt {reccount len : Nat} {padding rest : List UInt8}
    (fits : reccount < 2 ^ 32) :
    readLe (linkEaHeader reccount len padding ++ rest) 4 4 = some reccount := by
  rw [readLe_linkEaHeader_reccount, Nat.mod_eq_of_lt fits]

theorem readLe_linkEaHeader_len_of_lt {reccount len : Nat} {padding rest : List UInt8}
    (fits : len < 2 ^ 64) :
    readLe (linkEaHeader reccount len padding ++ rest) 8 8 = some len := by
  rw [readLe_linkEaHeader_len, Nat.mod_eq_of_lt fits]

/-- The buffer of `ld` holds the records of `links`, behind a header that counts
them and gives their end, and before bytes that nothing reads. -/
def LinkeaData.Holds (ld : LinkeaData) (links : List Link) : Prop :=
  links.length < 2 ^ 32 ∧ linkEaHeaderSize + recordsLength links < 2 ^ 64 ∧
    ∃ padding slack, padding.length = 8 ∧
      ld.ldBuf = linkEaHeader links.length (linkEaHeaderSize + recordsLength links) padding ++
        (packAll links ++ slack)

/-- What `Holds` says without the bound on the count: the count field gives the
number of records modulo its width. -/
def LinkeaData.Stores (ld : LinkeaData) (links : List Link) : Prop :=
  linkEaHeaderSize + recordsLength links < 2 ^ 64 ∧
    ∃ padding slack, padding.length = 8 ∧
      ld.ldBuf = linkEaHeader links.length (linkEaHeaderSize + recordsLength links) padding ++
        (packAll links ++ slack)

theorem LinkeaData.holds_iff {ld : LinkeaData} {links : List Link} :
    ld.Holds links ↔ links.length < 2 ^ 32 ∧ ld.Stores links :=
  Iff.rfl

/-! ## The writers keep the records -/

/-- The header `linkea_data_new` writes over the front of a buffer. -/
theorem holds_nil_of_new_header {buf : List UInt8} (long : linkEaHeaderSize ≤ buf.length) :
    LinkeaData.Holds ⟨overwrite (overwrite (overwrite buf 0 (encodeLe 4 linkEaMagic)) 8
      (encodeLe 8 linkEaHeaderSize)) 4 (encodeLe 4 0), none, 0⟩ [] := by
  -- cut the front of the buffer into the four fields the header is made of
  unfold linkEaHeaderSize at long
  obtain ⟨magic, buf, magicLength, rfl⟩ := @exists_eq_append_of_le_length buf 4 (by omega)
  simp only [List.length_append, magicLength] at long
  obtain ⟨count, buf, countLength, rfl⟩ := @exists_eq_append_of_le_length buf 4 (by omega)
  simp only [List.length_append, countLength] at long
  obtain ⟨len, buf, lenLength, rfl⟩ := @exists_eq_append_of_le_length buf 8 (by omega)
  simp only [List.length_append, lenLength] at long
  obtain ⟨padding, slack, paddingLength, rfl⟩ :=
    @exists_eq_append_of_le_length buf 8 (by omega)
  refine ⟨by decide, by decide, padding, slack, paddingLength, ?_⟩
  simp [overwrite_append_of_le, overwrite_front, magicLength, countLength, lenLength, linkEaHeader_eq]

/-- `linkea_data_new` starts a buffer that holds no record. -/
theorem linkeaDataNew_holds (buf : List UInt8) : (linkeaDataNew buf).Holds [] := by
  unfold linkeaDataNew
  apply holds_nil_of_new_header
  split
  · rw [List.length_replicate]
    decide
  · simp only [pageCacheSize, linkEaHeaderSize] at *
    omega

/-- `linkea_add_buf` appends the record of `link` to those a buffer stores, as
long as the length still fits its field; the count field wraps. -/
theorem LinkeaData.Stores.linkeaAddBuf {ld : LinkeaData} {links : List Link} (stores : ld.Stores links)
    (link : Link) (lengthFits : linkEaHeaderSize + recordsLength links + link.reclen < 2 ^ 64) :
    ∃ added, Obdclass.linkeaAddBuf ld link = some added ∧ added.Stores (links ++ [link]) := by
  obtain ⟨lenLt, padding, slack, paddingLength, bufIs⟩ := stores
  -- the new record goes right after the old ones, over the bytes nothing read
  have atEnd : overwrite (linkEaHeader links.length (linkEaHeaderSize + recordsLength links) padding ++
      (packAll links ++ slack)) (linkEaHeaderSize + recordsLength links) (linkeaEntryPack link) =
      linkEaHeader links.length (linkEaHeaderSize + recordsLength links) padding ++
        (packAll (links ++ [link]) ++ slack.drop link.reclen) := by
    rw [← List.append_assoc, overwrite_append_of_le _ (by simp [paddingLength])]
    simp [paddingLength, overwrite_eq, packAll_append]
  -- the count read back is the count modulo 2^32, and one more of it is stored
  have counted : linkEaHeader (links.length % 2 ^ 32 + 1) = linkEaHeader (links ++ [link]).length := by
    funext len padding
    rw [← linkEaHeader_reccount_mod (links.length % 2 ^ 32 + 1), Nat.mod_add_mod, linkEaHeader_reccount_mod,
      List.length_append, List.length_singleton]
  have added : Obdclass.linkeaAddBuf ld link = some ⟨linkEaHeader (links ++ [link]).length
      (linkEaHeaderSize + recordsLength (links ++ [link])) padding ++
        (packAll (links ++ [link]) ++ slack.drop link.reclen),
      some (linkEaHeaderSize + recordsLength links), link.reclen⟩ := by
    simp only [Obdclass.linkeaAddBuf, bufIs, readLe_linkEaHeader_len_of_lt lenLt,
      readLe_linkEaHeader_reccount, Option.bind_eq_bind, Option.bind_some,
      length_linkeaEntryPack, atEnd, overwrite_linkEaHeader_len, overwrite_linkEaHeader_reccount, counted]
    simp [recordsLength_append, Nat.add_assoc]
  refine ⟨_, added, by simpa [recordsLength_append, Nat.add_assoc] using lengthFits,
    padding, slack.drop link.reclen, paddingLength, rfl⟩

/-- `linkea_add_buf` appends the record of `link` to those a buffer holds, as
long as the count and the length still fit their fields. -/
theorem LinkeaData.Holds.linkeaAddBuf {ld : LinkeaData} {links : List Link} (holds : ld.Holds links)
    (link : Link) (countFits : links.length + 1 < 2 ^ 32)
    (lengthFits : linkEaHeaderSize + recordsLength links + link.reclen < 2 ^ 64) :
    ∃ added, Obdclass.linkeaAddBuf ld link = some added ∧ added.Holds (links ++ [link]) := by
  obtain ⟨countLt, stores⟩ := LinkeaData.holds_iff.1 holds
  obtain ⟨added, adds, stored⟩ := stores.linkeaAddBuf link lengthFits
  exact ⟨added, adds, LinkeaData.holds_iff.2 ⟨by simpa using countFits, stored⟩⟩

/-- `mdd_links_write`: the value stored is the buffer up to `leh_len`. -/
def mddLinksWrite (ld : LinkeaData) : Option (List UInt8) := do
  let len ← readLe ld.ldBuf 8 8
  return ld.ldBuf.take len

/-- The value `mdd_links_write` stores holds the records and ends with them. -/
theorem LinkeaData.Holds.mddLinksWrite {ld : LinkeaData} {links : List Link} (holds : ld.Holds links) :
    ∃ value, Obdclass.mddLinksWrite ld = some value ∧
      value.length = linkEaHeaderSize + recordsLength links ∧
      ∀ lee reclen, (⟨value, lee, reclen⟩ : LinkeaData).Holds links := by
  obtain ⟨countLt, lenLt, padding, slack, paddingLength, bufIs⟩ := holds
  refine ⟨linkEaHeader links.length (linkEaHeaderSize + recordsLength links) padding ++ packAll links,
    ?_, by simp [paddingLength], fun _ _ => ⟨countLt, lenLt, padding, [], paddingLength, by simp⟩⟩
  have taken : (linkEaHeader links.length (linkEaHeaderSize + recordsLength links) padding ++
      (packAll links ++ slack)).take (linkEaHeaderSize + recordsLength links) =
      linkEaHeader links.length (linkEaHeaderSize + recordsLength links) padding ++ packAll links := by
    rw [← List.append_assoc, List.take_append_of_le_length (by simp [paddingLength]),
      List.take_of_length_le (by simp [paddingLength])]
  simp [Obdclass.mddLinksWrite, bufIs, readLe_linkEaHeader_len_of_lt lenLt, taken]

/-! ## The readers on what the writers keep -/

/-- `linkea_init` admits a buffer that holds at least one record, as it is. -/
theorem LinkeaData.Holds.linkeaInit {ld : LinkeaData} {links : List Link} (holds : ld.Holds links)
    (nonempty : links ≠ []) : Obdclass.linkeaInit ld = some (.ok ld) := by
  obtain ⟨buf, lee, reclen⟩ := ld
  obtain ⟨countLt, -, padding, slack, -, bufIs⟩ := holds
  have counted : links.length ≠ 0 := Nat.pos_iff_ne_zero.mp (List.length_pos_iff.mpr nonempty)
  subst bufIs
  simp [Obdclass.linkeaInit, readLe_linkEaHeader_reccount_of_lt countLt, counted, linkEaMagic,
    linkEaMagicSwabbed]

/-- The loop of `linkea_links_find` over records laid one after the other finds
the first record of `key`, and reads only those records. -/
theorem linksFindFrom_records (pre post : List UInt8) (key : Link) (links : List Link) :
    linksFindFrom (pre ++ (packAll links ++ post)) key links.length pre.length =
      some (if key ∈ links then
        some (pre.length + recordsLength (links.takeWhile (· ≠ key)), key.reclen) else none) := by
  induction links generalizing pre with
  | nil => simp [linksFindFrom]
  | cons link links ih =>
    have layout : pre ++ (packAll (link :: links) ++ post) =
        pre ++ (linkeaEntryPack link ++ (packAll links ++ post)) := by simp
    simp only [List.length_cons, layout, linksFindFrom, linkeaEntryUnpack_record,
      linkeaEntryMatches_record, Option.bind_eq_bind, Option.bind_some]
    by_cases same : link = key
    · subst same
      simp
    · have next := ih (pre ++ linkeaEntryPack link)
      simp only [List.length_append, length_linkeaEntryPack, List.append_assoc] at next
      simp [same, Ne.symm same, next, Nat.add_assoc]

/-- On a buffer that holds records, `linkea_links_find` makes the first record of
`key` current, or answers `-ENOENT` when there is none. -/
theorem LinkeaData.Holds.linkeaLinksFind {ld : LinkeaData} {links : List Link} (holds : ld.Holds links)
    (key : Link) :
    Obdclass.linkeaLinksFind ld key = some (if key ∈ links then
      (0, { ld with
        ldLee := some (linkEaHeaderSize + recordsLength (links.takeWhile (· ≠ key)))
        ldReclen := key.reclen })
      else (-enoent, { ld with ldLee := none, ldReclen := 0 })) := by
  obtain ⟨countLt, -, padding, slack, paddingLength, bufIs⟩ := holds
  have found := linksFindFrom_records (linkEaHeader links.length (linkEaHeaderSize + recordsLength links)
    padding) slack key links
  rw [length_linkEaHeader _ _ paddingLength, ← List.append_assoc] at found
  rw [List.append_assoc] at found
  by_cases present : key ∈ links
  · simp [Obdclass.linkeaLinksFind, bufIs, readLe_linkEaHeader_reccount_of_lt countLt, found, present]
  · simp [Obdclass.linkeaLinksFind, bufIs, readLe_linkEaHeader_reccount_of_lt countLt, found, present]

theorem recordsLength_eq_zero_iff {links : List Link} : recordsLength links = 0 ↔ links = [] := by
  cases links with
  | nil => simp
  | cons link links => simp [Link.reclen_eq, linkEaEntrySize]

/-- `linkea_del_buf` on a record of a buffer that holds records drops the record,
the records behind it moving down to where it was. -/
theorem LinkeaData.Holds.linkeaDelBuf {ld : LinkeaData} {front back : List Link} {link : Link}
    (holds : ld.Holds (front ++ link :: back)) (reclen : ld.ldReclen = link.reclen) :
    ∃ deleted, Obdclass.linkeaDelBuf ld (linkEaHeaderSize + recordsLength front) = some deleted ∧
      deleted.Holds (front ++ back) ∧
      deleted.ldLee = (if back = [] then none else some (linkEaHeaderSize + recordsLength front)) ∧
      deleted.ldReclen = ld.ldReclen := by
  obtain ⟨countLt, lenLt, padding, slack, paddingLength, bufIs⟩ := holds
  set lee := linkEaHeaderSize + recordsLength front with leeIs
  set len := lee + recordsLength back
  set header := linkEaHeader (front ++ back).length len padding
  have total : linkEaHeaderSize + recordsLength (front ++ link :: back) = lee + link.reclen + recordsLength back := by
    simp [recordsLength_append, leeIs]
    omega
  have shorter : (lee + link.reclen + recordsLength back + 2 ^ 64 - link.reclen) % 2 ^ 64 = len := by
    omega
  have uncounted :
      linkEaHeader ((front ++ link :: back).length % 2 ^ 32 + 2 ^ 32 - 1) len padding = header := by
    have count :
        ((front ++ link :: back).length % 2 ^ 32 + 2 ^ 32 - 1) % 2 ^ 32 = (front ++ back).length := by
      simp only [List.length_append, List.length_cons] at countLt ⊢
      omega
    rw [← linkEaHeader_reccount_mod, count]
  have headerLength : header.length = linkEaHeaderSize := length_linkEaHeader _ _ paddingLength
  -- the records in front of the deleted one, and what lies from it on
  have layout : header ++ (packAll front ++ (linkeaEntryPack link ++ (packAll back ++ slack))) =
      (header ++ packAll front) ++ (linkeaEntryPack link ++ (packAll back ++ slack)) := by simp
  have frontLength : (header ++ packAll front).length = lee := by simp [headerLength, leeIs]
  have moved : slice (header ++ (packAll front ++ (linkeaEntryPack link ++ (packAll back ++ slack))))
      (lee + link.reclen) (len - lee) = some (packAll back) := by
    rw [layout, slice_append_of_le (by omega), frontLength, Nat.add_sub_cancel_left,
      ← length_linkeaEntryPack, slice_append_of_le (Nat.le_refl _), Nat.sub_self,
      show len - lee = (packAll back).length by simp [len]]
    exact slice_front _ _
  have shifted : overwrite (header ++ (packAll front ++ (linkeaEntryPack link ++ (packAll back ++ slack))))
      lee (packAll back) = header ++ (packAll (front ++ back) ++
        (linkeaEntryPack link ++ (packAll back ++ slack)).drop (recordsLength back)) := by
    rw [layout, overwrite_append_of_le _ (by omega), frontLength, Nat.sub_self]
    simp [overwrite_eq, packAll_append]
  refine ⟨{ ld with
      ldBuf := header ++ (packAll (front ++ back) ++
        (linkeaEntryPack link ++ (packAll back ++ slack)).drop (recordsLength back))
      ldLee := if back = [] then none else some lee }, ?_, ?_, rfl, rfl⟩
  · have noneLeft : (len ≤ lee) = (back = []) := by
      simp only [len, eq_iff_iff]
      rw [← recordsLength_eq_zero_iff]
      omega
    have records : packAll (front ++ link :: back) ++ slack =
        packAll front ++ (linkeaEntryPack link ++ (packAll back ++ slack)) := by
      simp [packAll_append]
    have fits : ¬ len < lee := by omega
    -- the reads and the header stores one by one: a single simp call over the
    -- whole block runs out of memory
    unfold Obdclass.linkeaDelBuf
    rw [bufIs, readLe_linkEaHeader_reccount, readLe_linkEaHeader_len, Option.bind_eq_bind,
      Option.bind_some, Option.bind_eq_bind, Option.bind_some, reclen, Nat.mod_eq_of_lt lenLt, total,
      shorter, overwrite_linkEaHeader_reccount]
    simp only []
    rw [overwrite_linkEaHeader_len, uncounted, records, moved, if_neg fits, Option.bind_some, shifted]
    simp only [noneLeft]
    rfl
  · exact ⟨by simp at countLt ⊢; omega, by simp [recordsLength_append] at lenLt ⊢; omega,
      padding, (linkeaEntryPack link ++ (packAll back ++ slack)).drop (recordsLength back), paddingLength,
      by simp [recordsLength_append, header, len, leeIs, Nat.add_assoc]⟩

/-! ## The filter loop of LFSCK -/

theorem LinkeaData.Holds.at_record {ld : LinkeaData} {front back : List Link} {link : Link}
    (holds : ld.Holds (front ++ link :: back)) :
    ∃ pre post, pre.length = linkEaHeaderSize + recordsLength front ∧
      ld.ldBuf = pre ++ (linkeaEntryPack link ++ post) := by
  obtain ⟨-, -, padding, slack, paddingLength, bufIs⟩ := holds
  refine ⟨linkEaHeader (front ++ link :: back).length
    (linkEaHeaderSize + recordsLength (front ++ link :: back)) padding ++ packAll front,
    packAll back ++ slack, by simp [paddingLength], ?_⟩
  simp [bufIs, packAll_append]

theorem LinkeaData.Holds.readLe_len {ld : LinkeaData} {links : List Link} (holds : ld.Holds links) :
    readLe ld.ldBuf 8 8 = some (linkEaHeaderSize + recordsLength links) := by
  obtain ⟨-, lenLt, padding, slack, -, bufIs⟩ := holds
  rw [bufIs, readLe_linkEaHeader_len, Nat.mod_eq_of_lt lenLt]

theorem LinkeaData.Holds.readBe_at {ld : LinkeaData} {front back : List Link} {link : Link}
    (holds : ld.Holds (front ++ link :: back)) :
    readBe ld.ldBuf (linkEaHeaderSize + recordsLength front) 2 = some link.reclen := by
  obtain ⟨pre, post, preLength, bufIs⟩ := holds.at_record
  rw [bufIs, ← preLength, readBe_record]

theorem LinkeaData.Holds.slice_at {ld : LinkeaData} {front back : List Link} {link : Link}
    (holds : ld.Holds (front ++ link :: back)) :
    slice ld.ldBuf (linkEaHeaderSize + recordsLength front) link.reclen = some (linkeaEntryPack link) := by
  obtain ⟨pre, post, preLength, bufIs⟩ := holds.at_record
  rw [bufIs, ← preLength, slice_record]

/-- `linkea_next_entry` on a record of a buffer that holds records goes to the
next record, or to none after the last. -/
theorem LinkeaData.Holds.linkeaNextEntry_at {ld : LinkeaData} {front back : List Link} {link : Link}
    (holds : ld.Holds (front ++ link :: back))
    (atLink : ld.ldLee = some (linkEaHeaderSize + recordsLength front)) (reclen : ld.ldReclen = link.reclen) :
    linkeaNextEntry ld = some { ld with
      ldLee := if back = [] then none else some (linkEaHeaderSize + recordsLength (front ++ [link])) } := by
  have pastEnd : linkEaHeaderSize + (recordsLength front + (link.reclen + recordsLength back)) ≤
      linkEaHeaderSize + (recordsLength front + link.reclen) ↔ back = [] := by
    rw [← recordsLength_eq_zero_iff]
    omega
  simp only [linkeaNextEntry, atLink, holds.readLe_len, Option.bind_eq_bind, Option.bind_some, reclen,
    recordsLength_append, recordsLength_cons, recordsLength_nil, Nat.add_zero, Nat.add_assoc, pastEnd]
  rfl

/-- Where the loop of `lfsck_namespace_filter_linkea_entry` stands, started on
the record `cur` with the records `before` in front of it and `after` behind: of
the records `seen` it went past, the copies of `cur` are deleted when `remove`,
and when not it met none and left the buffer `buf` as it was; the `rank` records
`rest` are still to come. -/
def FilterAt (before : List Link) (cur : Link) (after : List Link) (remove : Bool)
    (buf : List UInt8) (rank : Nat) (st : FilterState) : Prop :=
  ∃ seen rest, after = seen ++ rest ∧ rest.length = rank ∧
    st.ld.Holds (before ++ cur :: (seen.filter (· ≠ cur) ++ rest)) ∧
    st.ld.ldLee = (if rest = [] then none
      else some (linkEaHeaderSize + recordsLength (before ++ cur :: seen.filter (· ≠ cur)))) ∧
    st.repeated = seen.count cur ∧
    (remove = false → cur ∉ seen ∧ st.ld.ldBuf = buf)

/-- How the loop of `lfsck_namespace_filter_linkea_entry` leaves: it counted the
copies of `cur` behind it (the first one only, when not `remove`), and either
left the buffer as it was or deleted them all. -/
def FilterDone (before : List Link) (cur : Link) (after : List Link) (remove : Bool)
    (buf : List UInt8) : Option FilterState → Prop
  | none => False
  | some st =>
    st.repeated = (if remove then after.count cur else if cur ∈ after then 1 else 0) ∧
      (remove = false → st.ld.ldBuf = buf) ∧
      (remove = true → st.ld.Holds (before ++ cur :: after.filter (· ≠ cur)))

section Filter

variable {before after : List Link} {cur : Link} {remove : Bool} {buf : List UInt8}

/-- Where the filter loop stands on a record `link` behind `cur`, with the records
`kept` between them. -/
structure FilterOn (before : List Link) (cur : Link) (kept : List Link) (link : Link)
    (rest : List Link) (st : FilterState) : Prop where
  holds : st.ld.Holds (before ++ cur :: (kept ++ link :: rest))
  onLink : st.ld.ldLee = some (linkEaHeaderSize + recordsLength (before ++ cur :: kept))

theorem FilterOn.holdsAt {kept rest : List Link} {link : Link} {st : FilterState}
    (on : FilterOn before cur kept link rest st) :
    st.ld.Holds ((before ++ cur :: kept) ++ link :: rest) := by
  simpa using on.holds

/-- On a record other than `cur` the filter loop goes on to the next record. -/
theorem FilterOn.body_of_ne {kept rest : List Link} {link : Link} {st : FilterState}
    (on : FilterOn before cur kept link rest st) (other : link ≠ cur) :
    filterLinkeaBody (linkEaHeaderSize + recordsLength before) cur.reclen remove st =
      filterNext { st.ld with ldReclen := link.reclen } st.repeated := by
  have read := on.holdsAt.readBe_at
  delta filterLinkeaBody
  by_cases sameLength : link.reclen = cur.reclen
  · -- the lengths agree, so memcmp compares the two records, which differ
    have here := on.holdsAt.slice_at
    rw [sameLength] at here
    have old := on.holds.slice_at
    have differ : linkeaEntryPack link ≠ linkeaEntryPack cur :=
      fun same => other (linkeaEntryPack_injective same)
    simp [on.onLink, read, sameLength, here, old, differ]
  · simp [on.onLink, read, sameLength]

/-- On a copy of `cur` the filter loop counts it, and deletes it or stops. -/
theorem FilterOn.body_of_eq {kept rest : List Link} {st : FilterState}
    (on : FilterOn before cur kept cur rest st) :
    filterLinkeaBody (linkEaHeaderSize + recordsLength before) cur.reclen remove st =
      if remove then
        match linkeaDelBuf { st.ld with ldReclen := cur.reclen }
            (linkEaHeaderSize + recordsLength (before ++ cur :: kept)) with
        | none => .inl none
        | some ld => .inr ⟨ld, st.repeated + 1⟩
      else .inl (some ⟨{ st.ld with ldReclen := cur.reclen }, st.repeated + 1⟩) := by
  have read := on.holdsAt.readBe_at
  have here := on.holdsAt.slice_at
  have old := on.holds.slice_at
  delta filterLinkeaBody
  simp [on.onLink, read, here, old]


/-- One round of the filter loop: it leaves as `FilterDone` says, or stands one
record further on. -/
theorem FilterAt.step {rank : Nat} {st : FilterState}
    (standing : FilterAt before cur after remove buf rank st) :
    (∃ result, filterLinkeaBody (linkEaHeaderSize + recordsLength before) cur.reclen remove st =
        .inl result ∧ FilterDone before cur after remove buf result) ∨
      ∃ lower next, lower < rank ∧
        filterLinkeaBody (linkEaHeaderSize + recordsLength before) cur.reclen remove st = .inr next ∧
        FilterAt before cur after remove buf lower next := by
  obtain ⟨seen, rest, afterIs, rfl, holds, leeIs, repeatedIs, keep⟩ := standing
  cases rest with
  | nil =>
    -- past the last record: the loop leaves with what it counted
    left
    refine ⟨some st, by delta filterLinkeaBody; simp [leeIs], ?_⟩
    simp only [List.append_nil] at afterIs holds
    subst afterIs
    cases remove with
    | false =>
      obtain ⟨notSeen, sameBuf⟩ := keep rfl
      simp [FilterDone, repeatedIs, notSeen, sameBuf, List.count_eq_zero_of_not_mem notSeen]
    | true => simpa [FilterDone, repeatedIs] using holds
  | cons link rest =>
    have on : FilterOn before cur (seen.filter (· ≠ cur)) link rest st := ⟨holds, by simpa using leeIs⟩
    by_cases same : link = cur
    · rw [same] at on afterIs
      cases remove with
      | false =>
        -- the first copy stops the loop
        obtain ⟨notSeen, sameBuf⟩ := keep rfl
        left
        refine ⟨_, on.body_of_eq, ?_⟩
        simp [FilterDone, repeatedIs, afterIs, sameBuf, List.count_eq_zero_of_not_mem notSeen]
      | true =>
        -- the copy is deleted, and the loop stays where it is
        obtain ⟨deleted, deletes, deletedHolds, deletedLee, -⟩ :=
          @LinkeaData.Holds.linkeaDelBuf { st.ld with ldReclen := cur.reclen } _ _ _ on.holdsAt rfl
        right
        refine ⟨rest.length, ⟨deleted, st.repeated + 1⟩, by simp, ?_, seen ++ [cur], rest,
          by simp [afterIs], rfl, ?_, ?_, by simp [repeatedIs], by simp⟩
        · rw [on.body_of_eq, if_pos rfl, deletes]
        · simpa using deletedHolds
        · simpa using deletedLee
    · -- another record: step over it
      have next := @LinkeaData.Holds.linkeaNextEntry_at { st.ld with ldReclen := link.reclen } _ _ _
        on.holdsAt on.onLink rfl
      right
      refine ⟨rest.length, _, by simp, by rw [on.body_of_ne same, filterNext, next], seen ++ [link], rest,
        by simp [afterIs], rfl, ?_, ?_, by simp [repeatedIs, same], ?_⟩
      · have shape : before ++ cur :: ((seen ++ [link]).filter (· ≠ cur) ++ rest) =
            before ++ cur :: (seen.filter (· ≠ cur) ++ link :: rest) := by
          simp [same]
        rw [shape]
        exact holds
      · simp [same, List.append_assoc]
      · intro notRemoving
        obtain ⟨notSeen, sameBuf⟩ := keep notRemoving
        exact ⟨by simp [notSeen, Ne.symm same], sameBuf⟩

/-- The filter loop ends from wherever it stands, as `FilterDone` says. -/
theorem FilterAt.ends {rank : Nat} {st : FilterState}
    (standing : FilterAt before cur after remove buf rank st) :
    ∃ result, FilterDone before cur after remove buf result ∧
      Loop.Ends (Loop.run (filterLinkeaBody (linkEaHeaderSize + recordsLength before) cur.reclen remove)
        · st) result :=
  Loop.ends_of_ranked (FilterAt before cur after remove buf) (FilterDone before cur after remove buf)
    (fun _ _ standing => standing.step) rank st standing


/-- After `linkea_next_entry`, the filter stands behind `cur` with all of `after`
still to come. -/
theorem LinkeaData.Holds.filterAt_start {ld : LinkeaData} (holds : ld.Holds (before ++ cur :: after))
    (onCur : ld.ldLee = some (linkEaHeaderSize + recordsLength before))
    (curLength : ld.ldReclen = cur.reclen) (remove : Bool) :
    ∃ next, linkeaNextEntry ld = some next ∧
      FilterAt before cur after remove ld.ldBuf after.length ⟨next, 0⟩ := by
  refine ⟨_, holds.linkeaNextEntry_at onCur curLength, [], after, by simp, rfl, ?_, by simp, by simp,
    fun _ => ⟨by simp, rfl⟩⟩
  simp only [List.filter_nil, List.nil_append]
  exact holds

/-- On a buffer the writers made, `lfsck_namespace_filter_linkea_entry` started on
a record ends, with that record current again, as `FilterDone` says. -/
theorem LinkeaData.Holds.filterLinkeaEntry_ends {ld : LinkeaData}
    (holds : ld.Holds (before ++ cur :: after))
    (onCur : ld.ldLee = some (linkEaHeaderSize + recordsLength before))
    (curLength : ld.ldReclen = cur.reclen) (remove : Bool) :
    ∃ st, FilterDone before cur after remove ld.ldBuf (some st) ∧
      Loop.Ends (lfsckNamespaceFilterLinkeaEntry ld remove)
        (some ({ st.ld with ldLee := ld.ldLee, ldReclen := ld.ldReclen }, st.repeated)) := by
  obtain ⟨next, stepped, start⟩ := holds.filterAt_start onCur curLength remove
  obtain ⟨result, done, ends⟩ := start.ends
  cases result with
  | none => exact done.elim
  | some st =>
    refine ⟨st, done, ?_⟩
    have unfolded : lfsckNamespaceFilterLinkeaEntry ld remove = fun fuel =>
        (Loop.run (filterLinkeaBody (linkEaHeaderSize + recordsLength before) cur.reclen remove) fuel
          ⟨next, 0⟩).map (Option.map fun st =>
            ({ st.ld with ldLee := ld.ldLee, ldReclen := ld.ldReclen }, st.repeated)) := by
      funext fuel
      simp [lfsckNamespaceFilterLinkeaEntry, onCur, stepped, curLength]
    rw [unfolded]
    exact ends.map _

/-- Without `remove`, the filter on a buffer the writers made ends, leaves the link
data as it was, and finds whether a copy of the current record follows. -/
theorem LinkeaData.Holds.filterLinkeaEntry_keep {ld : LinkeaData}
    (holds : ld.Holds (before ++ cur :: after))
    (onCur : ld.ldLee = some (linkEaHeaderSize + recordsLength before))
    (curLength : ld.ldReclen = cur.reclen) :
    Loop.Ends (lfsckNamespaceFilterLinkeaEntry ld false) (some (ld, if cur ∈ after then 1 else 0)) := by
  obtain ⟨st, ⟨repeated, sameBuf, -⟩, ends⟩ := holds.filterLinkeaEntry_ends onCur curLength false
  have restored : { st.ld with ldLee := ld.ldLee, ldReclen := ld.ldReclen } = ld := by
    show LinkeaData.mk st.ld.ldBuf ld.ldLee ld.ldReclen = ld
    rw [sameBuf rfl]
  rw [restored, repeated, if_neg Bool.false_ne_true] at ends
  exact ends

/-- With `remove`, the filter on a buffer the writers made ends, deletes every copy
of the current record behind it, counts them, and leaves the current record
current. -/
theorem LinkeaData.Holds.filterLinkeaEntry_remove {ld : LinkeaData}
    (holds : ld.Holds (before ++ cur :: after))
    (onCur : ld.ldLee = some (linkEaHeaderSize + recordsLength before))
    (curLength : ld.ldReclen = cur.reclen) :
    ∃ filtered, Loop.Ends (lfsckNamespaceFilterLinkeaEntry ld true) (some (filtered, after.count cur)) ∧
      filtered.Holds (before ++ cur :: after.filter (· ≠ cur)) ∧
      filtered.ldLee = ld.ldLee ∧ filtered.ldReclen = ld.ldReclen := by
  obtain ⟨st, ⟨repeated, -, filteredHolds⟩, ends⟩ := holds.filterLinkeaEntry_ends onCur curLength true
  rw [repeated, if_pos rfl] at ends
  exact ⟨_, ends, filteredHolds rfl, rfl, rfl⟩

end Filter

/-! ## What `linkea_init` admits -/

/-- A link with an empty name under a parent fid of zeros. -/
def emptyLink : Link := ⟨[], List.replicate 16 0, rfl, by decide⟩

/-- A value of 24 bytes whose header counts one record and gives 24 as the total
length: a header with nothing behind it. -/
def headerOnlyLinkEa : List UInt8 := linkEaHeader 1 linkEaHeaderSize (encodeLe 8 0)

/-- A value of two records, the second of which gives zero as its length. -/
def zeroReclenLinkEa : List UInt8 :=
  linkEaHeader 2 60 (encodeLe 8 0) ++ linkeaEntryPack emptyLink ++ encodeBe 2 0 ++ emptyLink.pfid

/-- `linkea_init` admits values the readers cannot walk.  On a header that counts
a record and holds none, `linkea_links_find` reads past the end of the value,
which is also `leh_len`.  When the record after the current one gives zero as its
length, the filter loop of LFSCK stands on it for ever, whether it removes copies
or not. -/
theorem linkeaInit_admits_unwalkable_values :
    (linkeaInit ⟨headerOnlyLinkEa, none, 0⟩ = some (.ok ⟨headerOnlyLinkEa, none, 0⟩) ∧
      readLe headerOnlyLinkEa 8 8 = some headerOnlyLinkEa.length ∧
      ∀ key, linkeaLinksFind ⟨headerOnlyLinkEa, none, 0⟩ key = none) ∧
    (linkeaInit ⟨zeroReclenLinkEa, none, 0⟩ = some (.ok ⟨zeroReclenLinkEa, none, 0⟩) ∧
      linkeaFirstEntry ⟨zeroReclenLinkEa, none, 0⟩ = some ⟨zeroReclenLinkEa, some 24, 0⟩ ∧
      (linkeaEntryUnpack zeroReclenLinkEa 24).map Prod.fst = some 18 ∧
      ∀ remove fuel, lfsckNamespaceFilterLinkeaEntry ⟨zeroReclenLinkEa, some 24, 18⟩ remove fuel = none) := by
  have pastEnd : linkeaEntryUnpack headerOnlyLinkEa linkEaHeaderSize = none := by decide
  have counted : readLe headerOnlyLinkEa 4 4 = some 1 := by decide
  have started : linkeaNextEntry ⟨zeroReclenLinkEa, some 24, 18⟩ =
      some ⟨zeroReclenLinkEa, some 42, 18⟩ := by decide
  -- on the record of length zero the loop steps by zero and stays where it is
  have standsStill : ∀ remove reclen, filterLinkeaBody 24 18 remove ⟨⟨zeroReclenLinkEa, some 42, reclen⟩, 0⟩ =
      .inr ⟨⟨zeroReclenLinkEa, some 42, 0⟩, 0⟩ := by
    intro remove reclen
    cases remove <;> rfl
  refine ⟨⟨by decide, by decide, fun key => ?_⟩, by decide, by decide, by decide, fun remove fuel => ?_⟩
  · simp [linkeaLinksFind, counted, linksFindFrom, pastEnd]
  · have never : Loop.run (filterLinkeaBody 24 18 remove) fuel ⟨⟨zeroReclenLinkEa, some 42, 18⟩, 0⟩ = none :=
      Loop.run_eq_none_of_closed (fun st : FilterState => ∃ reclen, st = ⟨⟨zeroReclenLinkEa, some 42, reclen⟩, 0⟩)
      (fun _ ⟨reclen, isStuck⟩ => ⟨_, isStuck ▸ standsStill remove reclen, 0, rfl⟩)
      fuel ⟨⟨zeroReclenLinkEa, some 42, 18⟩, 0⟩ ⟨18, rfl⟩
    simp [lfsckNamespaceFilterLinkeaEntry, started, never]

end Obdclass
end Lustre
