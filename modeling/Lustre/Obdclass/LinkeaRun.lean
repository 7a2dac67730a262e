import Lustre.Obdclass.Linkea

/-!
# Runs of adds and deletes on a link xattr

The callers of linkea.c build a link xattr with `linkea_data_new` and change it
with `linkea_add_buf`, and with `linkea_links_find` followed, when it finds the
link, by `linkea_del_buf` of the record it found.  Read back by walking the
records the header counts, each unpacked with its name, the buffer gives the
list of links the operations make: an add appends, a delete removes the first
copy (`linkeaRun_decodes_links`).

The count field `leh_reccount` is 32 bits wide and `linkea_add_buf` increments
it without a check: after 2^32 adds it reads zero, and the walk, like
`linkea_links_find`, finds no record (`linkeaRun_wraps_reccount`).
-/

namespace Lustre
namespace Obdclass

open Bytes

/-! ## Reading the records back -/

/-- `linkea_entry_unpack` with a name: the record length, the name of
`reclen - sizeof(struct link_ea_entry)` bytes after the fixed part, and the
parent fid. -/
def linkeaEntryUnpackName (buf : List UInt8) (lee : Nat) : Option (Nat × List UInt8 × List UInt8) := do
  let (reclen, pfid) ← linkeaEntryUnpack buf lee
  let name ← slice buf (lee + linkEaEntrySize) (reclen - linkEaEntrySize)
  return (reclen, name, pfid)

/-- The `count` records from `lee` on, each found by the length of the one
before, as `linkea_next_entry` steps. -/
def linkeaRecordsFrom (buf : List UInt8) : Nat → Nat → Option (List (Nat × List UInt8 × List UInt8))
  | 0, _ => some []
  | count + 1, lee => do
    let record ← linkeaEntryUnpackName buf lee
    let rest ← linkeaRecordsFrom buf count (lee + record.1)
    return record :: rest

/-- The records of a buffer, as many as its header counts, from the first
(`linkea_first_entry`). -/
def linkeaRecords (ld : LinkeaData) : Option (List (Nat × List UInt8 × List UInt8)) := do
  let reccount ← readLe ld.ldBuf 4 4
  linkeaRecordsFrom ld.ldBuf reccount linkEaHeaderSize

/-- A link as a reader finds it: the record length, the name and the parent. -/
def Link.record (link : Link) : Nat × List UInt8 × List UInt8 :=
  (linkEaEntrySize + link.name.length, link.name, link.pfid)

theorem linkeaEntryUnpackName_record (pre post : List UInt8) (link : Link) :
    linkeaEntryUnpackName (pre ++ (linkeaEntryPack link ++ post)) pre.length = some link.record := by
  simp [linkeaEntryUnpackName, linkeaEntryUnpack_record, Link.reclen_eq, slice_record_name, Link.record]

/-- The walk over records laid one after the other finds them in turn. -/
theorem linkeaRecordsFrom_records (post : List UInt8) :
    ∀ (links : List Link) (pre : List UInt8) (count : Nat), count ≤ links.length →
      linkeaRecordsFrom (pre ++ (packAll links ++ post)) count pre.length =
        some ((links.take count).map Link.record)
  | _, _, 0, _ => rfl
  | [], _, _ + 1, more => absurd more (by simp)
  | link :: links, pre, count + 1, fits => by
    have next := linkeaRecordsFrom_records post links (pre ++ linkeaEntryPack link) count
      (by simpa using fits)
    simp only [List.length_append, length_linkeaEntryPack, List.append_assoc, Link.reclen_eq] at next
    simp [linkeaRecordsFrom, linkeaEntryUnpackName_record, Link.record, next]

/-- The walk finds as many of the records as the count field gives. -/
theorem LinkeaData.Stores.linkeaRecords {ld : LinkeaData} {links : List Link} (stores : ld.Stores links) :
    linkeaRecords ld = some ((links.take (links.length % 2 ^ 32)).map Link.record) := by
  obtain ⟨-, padding, slack, paddingLength, bufIs⟩ := stores
  have walked := linkeaRecordsFrom_records slack links
    (linkEaHeader links.length (linkEaHeaderSize + recordsLength links) padding)
    (links.length % 2 ^ 32) (Nat.mod_le _ _)
  rw [length_linkEaHeader _ _ paddingLength] at walked
  rw [Obdclass.linkeaRecords, bufIs, readLe_linkEaHeader_reccount, Option.bind_eq_bind, Option.bind_some, walked,
    List.map_take]

theorem LinkeaData.Holds.linkeaRecords {ld : LinkeaData} {links : List Link} (holds : ld.Holds links) :
    linkeaRecords ld = some (links.map Link.record) := by
  obtain ⟨countLt, stores⟩ := LinkeaData.holds_iff.1 holds
  rw [stores.linkeaRecords, Nat.mod_eq_of_lt countLt, List.take_length]

/-! ## Operations -/

/-- What the callers do with a link xattr: add a link, or look one up and
delete it where it is found. -/
inductive LinkeaOp
  | add (link : Link)
  | findDel (link : Link)
  deriving DecidableEq

/-- One operation: `linkea_add_buf`, or `linkea_links_find` followed, when it
returns 0, by `linkea_del_buf` of the record it made current. -/
def linkeaApply (ld : LinkeaData) : LinkeaOp → Option LinkeaData
  | .add link => linkeaAddBuf ld link
  | .findDel link => do
    let (rc, found) ← linkeaLinksFind ld link
    if rc = 0 then
      match found.ldLee with
      | some lee => linkeaDelBuf found lee
      | none => none
    else return found

/-- What an operation does to the list of links. -/
def linksApply (links : List Link) : LinkeaOp → List Link
  | .add link => links ++ [link]
  | .findDel link => links.erase link

theorem length_linksApply_le (links : List Link) (op : LinkeaOp) :
    (linksApply links op).length ≤ links.length + 1 := by
  cases op with
  | add link => simp [linksApply]
  | findDel link => exact Nat.le_trans List.length_erase_le (Nat.le_succ _)

/-- A record takes less than 2^16 bytes. -/
theorem recordsLength_le (links : List Link) : recordsLength links ≤ links.length * (2 ^ 16 - 1) := by
  induction links with
  | nil => simp
  | cons link links ih =>
    have := link.reclen_lt
    simp only [recordsLength_cons, List.length_cons, Link.reclen_eq] at ih ⊢
    omega

/-- A link of a list stands right after the links before its first copy. -/
theorem exists_eq_takeWhile_append {links : List Link} {key : Link} (mem : key ∈ links) :
    ∃ back, links = links.takeWhile (· ≠ key) ++ key :: back ∧
      links.erase key = links.takeWhile (· ≠ key) ++ back := by
  induction links with
  | nil => simp at mem
  | cons link links ih =>
    by_cases same : link = key
    · subst same
      exact ⟨links, by simp, by simp⟩
    · have later : key ∈ links := by
        rcases List.mem_cons.1 mem with first | later
        · exact absurd first.symm same
        · exact later
      obtain ⟨back, split, erased⟩ := ih later
      refine ⟨back, ?_, ?_⟩
      · rw [List.takeWhile_cons_of_pos (by simpa using same), List.cons_append, ← split]
      · rw [List.erase_cons_tail (by simpa using same), List.takeWhile_cons_of_pos (by simpa using same),
          erased, List.cons_append]

/-- One operation keeps a buffer holding the links the list says, as long as
the count and the length fit their fields. -/
theorem LinkeaData.Holds.linkeaApply {ld : LinkeaData} {links : List Link} (holds : ld.Holds links)
    (op : LinkeaOp) (countFits : links.length + 1 < 2 ^ 32)
    (lengthFits : linkEaHeaderSize + recordsLength links + 2 ^ 16 < 2 ^ 64) :
    ∃ ld', Obdclass.linkeaApply ld op = some ld' ∧ ld'.Holds (linksApply links op) := by
  cases op with
  | add link =>
    have := link.reclen_lt
    exact holds.linkeaAddBuf link countFits (by unfold Link.reclen; omega)
  | findDel key =>
    have found := holds.linkeaLinksFind key
    by_cases present : key ∈ links
    · -- the record found is deleted, and the records behind it move down
      obtain ⟨back, split, erased⟩ := exists_eq_takeWhile_append present
      rw [if_pos present] at found
      have atFound : ({ ld with
          ldLee := some (linkEaHeaderSize + recordsLength (links.takeWhile (· ≠ key)))
          ldReclen := key.reclen } : LinkeaData).Holds (links.takeWhile (· ≠ key) ++ key :: back) := by
        rw [← split]
        exact holds
      obtain ⟨deleted, dels, deletedHolds, -, -⟩ := atFound.linkeaDelBuf rfl
      refine ⟨deleted, ?_, ?_⟩
      · simp only [Obdclass.linkeaApply, found, Option.bind_eq_bind, Option.bind_some, ↓reduceIte]
        exact dels
      · rw [linksApply, erased]
        exact deletedHolds
    · rw [if_neg present] at found
      refine ⟨{ ld with ldLee := none, ldReclen := 0 }, by simp [Obdclass.linkeaApply, found, enoent], ?_⟩
      rw [linksApply, List.erase_of_not_mem present]
      exact holds

/-- A run of fewer operations than the count field can count keeps a buffer
holding the links the list says. -/
theorem LinkeaData.Holds.foldlM_linkeaApply :
    ∀ (ops : List LinkeaOp) {ld : LinkeaData} {links : List Link}, ld.Holds links →
      links.length + ops.length < 2 ^ 32 →
      ∃ ld', ops.foldlM Obdclass.linkeaApply ld = some ld' ∧ ld'.Holds (ops.foldl linksApply links)
  | [], ld, _, holds, _ => ⟨ld, rfl, holds⟩
  | op :: ops, _, links, holds, few => by
    have bounded := recordsLength_le links
    simp only [List.length_cons] at few
    obtain ⟨ld', stepped, holds'⟩ := holds.linkeaApply op (by omega) (by unfold linkEaHeaderSize; omega)
    have grown := length_linksApply_le links op
    obtain ⟨ld'', ran, holds''⟩ := holds'.foldlM_linkeaApply ops (by omega)
    exact ⟨ld'', by simp [stepped, ran], holds''⟩

/-- Starting from `linkea_data_new`, any run of fewer than 2^32 adds and
find-then-deletes leaves a buffer whose records, walked by the count in the
header, are the links of the list the run makes, each of length
`sizeof(struct link_ea_entry)` plus its name; `leh_len` is the header size plus
the lengths of the records; and unpacking a packed record gives back its
length, name and parent. -/
theorem linkeaRun_decodes_links (buf : List UInt8) (ops : List LinkeaOp) (few : ops.length < 2 ^ 32) :
    ∃ ld, ops.foldlM linkeaApply (linkeaDataNew buf) = some ld ∧
      linkeaRecords ld = some ((ops.foldl linksApply []).map Link.record) ∧
      readLe ld.ldBuf 8 8 = some (linkEaHeaderSize + recordsLength (ops.foldl linksApply [])) ∧
      ∀ link : Link, linkeaEntryUnpackName (linkeaEntryPack link) 0 = some link.record := by
  obtain ⟨ld, ran, holds⟩ := (linkeaDataNew_holds buf).foldlM_linkeaApply ops (by simpa using few)
  refine ⟨ld, ran, holds.linkeaRecords, holds.readLe_len, fun link => ?_⟩
  simpa using linkeaEntryUnpackName_record [] [] link

/-- Two links under one parent. -/
def linkeaRunDemoOps : List LinkeaOp :=
  [.add ⟨[97], List.replicate 16 0, List.length_replicate, by decide⟩,
    .add ⟨[98], List.replicate 16 0, List.length_replicate, by decide⟩,
    .findDel ⟨[97], List.replicate 16 0, List.length_replicate, by decide⟩]

theorem linkeaRun_decodes_links_of_demo :
    linkeaRunDemoOps.length < 2 ^ 32 ∧
      ∃ ld, linkeaRunDemoOps.foldlM linkeaApply (linkeaDataNew []) = some ld ∧
        linkeaRecords ld = some ((linkeaRunDemoOps.foldl linksApply []).map Link.record) ∧
        readLe ld.ldBuf 8 8 = some (linkEaHeaderSize + recordsLength (linkeaRunDemoOps.foldl linksApply [])) ∧
        ∀ link : Link, linkeaEntryUnpackName (linkeaEntryPack link) 0 = some link.record :=
  ⟨by decide, linkeaRun_decodes_links [] linkeaRunDemoOps (by decide)⟩

/-! ## The count wraps -/

/-- Adds keep a buffer storing the links, as long as the length fits. -/
theorem LinkeaData.Stores.foldlM_adds (link : Link) :
    ∀ (count : Nat) {ld : LinkeaData} {links : List Link}, ld.Stores links →
      linkEaHeaderSize + recordsLength links + count * link.reclen < 2 ^ 64 →
      ∃ ld', (List.replicate count (LinkeaOp.add link)).foldlM linkeaApply ld = some ld' ∧
        ld'.Stores (links ++ List.replicate count link)
  | 0, ld, _, stores, _ => ⟨ld, rfl, by simpa using stores⟩
  | count + 1, _, links, stores, fits => by
    obtain ⟨added, adds, stored⟩ := stores.linkeaAddBuf link (by rw [Nat.succ_mul] at fits; omega)
    obtain ⟨ld', ran, stored'⟩ := stored.foldlM_adds link count (by
      rw [Nat.succ_mul] at fits
      simp only [recordsLength_append, recordsLength_cons, recordsLength_nil]
      omega)
    refine ⟨ld', by simp [List.replicate_succ, linkeaApply, adds, ran], ?_⟩
    simpa [List.replicate_succ] using stored'

theorem foldl_linksApply_adds (link : Link) :
    ∀ (count : Nat) (links : List Link),
      (List.replicate count (LinkeaOp.add link)).foldl linksApply links = links ++ List.replicate count link
  | 0, links => by simp
  | count + 1, links => by
    rw [List.replicate_succ, List.foldl_cons, foldl_linksApply_adds link count, linksApply,
      List.append_assoc, List.singleton_append, ← List.replicate_succ]

/-- On a buffer whose count field reads zero, `linkea_links_find` finds
nothing. -/
theorem LinkeaData.Stores.linkeaLinksFind_of_wrapped {ld : LinkeaData} {links : List Link}
    (stores : ld.Stores links) (wrapped : links.length % 2 ^ 32 = 0) (key : Link) :
    Obdclass.linkeaLinksFind ld key = some (-enoent, { ld with ldLee := none, ldReclen := 0 }) := by
  obtain ⟨-, padding, slack, -, bufIs⟩ := stores
  -- a count of zero: the walk ends before the first record
  rw [Obdclass.linkeaLinksFind, bufIs, readLe_linkEaHeader_reccount, wrapped]
  rfl

/-- A link with the one-byte name "a" under a zero parent. -/
def oneByteLink : Link := ⟨[97], List.replicate 16 0, List.length_replicate, by decide⟩

/-- After 2^32 adds of one link the count field reads zero: the walk of the
records finds none, and `linkea_links_find` answers `-ENOENT` for the link the
buffer holds 2^32 copies of. -/
theorem linkeaRun_wraps_reccount :
    ∃ ld, (List.replicate (2 ^ 32) (LinkeaOp.add oneByteLink)).foldlM linkeaApply (linkeaDataNew []) = some ld ∧
      (List.replicate (2 ^ 32) (LinkeaOp.add oneByteLink)).foldl linksApply [] =
        List.replicate (2 ^ 32) oneByteLink ∧
      linkeaRecords ld = some [] ∧
      (linkeaLinksFind ld oneByteLink).map Prod.fst = some (-enoent) := by
  -- the replicated lists are never unfolded: only their length is read
  have start := (LinkeaData.holds_iff.1 (linkeaDataNew_holds [])).2
  obtain ⟨ld, ran, stores⟩ := start.foldlM_adds oneByteLink (2 ^ 32) (by decide)
  rw [List.nil_append] at stores
  have wrapped : (List.replicate (2 ^ 32) oneByteLink).length % 2 ^ 32 = 0 := by
    rw [List.length_replicate, Nat.mod_self]
  refine ⟨ld, ran, by rw [foldl_linksApply_adds, List.nil_append], ?_, ?_⟩
  · rw [stores.linkeaRecords, wrapped, List.take_zero, List.map_nil]
  · rw [stores.linkeaLinksFind_of_wrapped wrapped]
    rfl

end Obdclass
end Lustre
