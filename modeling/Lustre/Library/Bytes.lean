import Mathlib

/-!
# Byte buffers

A record kept on disk is a string of bytes: numbers of a fixed width stored
least significant byte first (the host order of the server that wrote them) or
most significant byte first (fields meant to be read on any host), at offsets
that other fields of the record give.  A buffer is a `List UInt8`.

`slice buf off width` is the `width` bytes at `off`, and `none` when one of
them lies past the end, so that "a reader stays inside the buffer" is "none of
its reads is `none`".  `overwrite` is an in-place store.  The lemmas say how
reads and stores meet appended buffers, which is how records laid out one after
the other are read.
-/

namespace Bytes

/-! ## Byte order -/

/-- The number whose bytes, least significant first, are the list. -/
def decodeLe : List UInt8 → Nat
  | [] => 0
  | byte :: rest => byte.toNat + 256 * decodeLe rest

@[simp] theorem decodeLe_nil : decodeLe [] = 0 := rfl

theorem decodeLe_cons (byte : UInt8) (rest : List UInt8) :
    decodeLe (byte :: rest) = byte.toNat + 256 * decodeLe rest := rfl

/-- The number whose bytes, most significant first, are the list. -/
def decodeBe (bytes : List UInt8) : Nat := decodeLe bytes.reverse

theorem decodeBe_eq (bytes : List UInt8) : decodeBe bytes = decodeLe bytes.reverse := rfl

/-- The low `width` bytes of `value`, least significant first. -/
def encodeLe : Nat → Nat → List UInt8
  | 0, _ => []
  | width + 1, value => value.toUInt8 :: encodeLe width (value / 256)

@[simp] theorem encodeLe_zero (value : Nat) : encodeLe 0 value = [] := rfl

theorem encodeLe_succ (width value : Nat) :
    encodeLe (width + 1) value = value.toUInt8 :: encodeLe width (value / 256) := rfl

/-- The low `width` bytes of `value`, most significant first. -/
def encodeBe (width value : Nat) : List UInt8 := (encodeLe width value).reverse

theorem encodeBe_eq (width value : Nat) : encodeBe width value = (encodeLe width value).reverse := rfl

@[simp] theorem length_encodeLe (width value : Nat) : (encodeLe width value).length = width := by
  induction width generalizing value with
  | zero => rfl
  | succ width ih => simp [encodeLe_succ, ih]

@[simp] theorem length_encodeBe (width value : Nat) : (encodeBe width value).length = width := by
  simp [encodeBe_eq]

/-- Storing and reading back keeps the low `width` bytes. -/
@[simp] theorem decodeLe_encodeLe (width value : Nat) :
    decodeLe (encodeLe width value) = value % 256 ^ width := by
  induction width generalizing value with
  | zero => simp [Nat.mod_one]
  | succ width ih =>
    simp only [encodeLe_succ, decodeLe_cons, ih, Nat.toUInt8_eq]
    rw [Nat.pow_succ, Nat.mul_comm (256 ^ width) 256, Nat.mod_mul]
    rfl

/-- Bytes laid one after the other are read as one number, the later ones
above the earlier. -/
theorem decodeLe_append (front back : List UInt8) :
    decodeLe (front ++ back) = decodeLe front + 256 ^ front.length * decodeLe back := by
  induction front with
  | nil => simp
  | cons byte front ih =>
    rw [List.cons_append, decodeLe_cons, decodeLe_cons, ih, List.length_cons, Nat.pow_succ]
    rw [Nat.mul_add, ← Nat.mul_assoc, Nat.mul_comm 256 (256 ^ front.length), Nat.add_assoc]

/-- Only the low `width` bytes of a value are stored. -/
theorem encodeLe_mod (width value : Nat) : encodeLe width (value % 256 ^ width) = encodeLe width value := by
  induction width generalizing value with
  | zero => rfl
  | succ width ih =>
    have low : (value % 256 ^ (width + 1)).toUInt8 = value.toUInt8 := by
      apply UInt8.toNat_inj.mp
      simp only [Nat.toUInt8_eq]
      rw [Nat.pow_succ]
      simp
    have high : value % 256 ^ (width + 1) / 256 = value / 256 % 256 ^ width := by
      rw [Nat.pow_succ, Nat.mul_comm, Nat.mod_mul_right_div_self]
    simp only [encodeLe_succ, low, high, ih]

@[simp] theorem decodeBe_encodeBe (width value : Nat) :
    decodeBe (encodeBe width value) = value % 256 ^ width := by
  simp [decodeBe_eq, encodeBe_eq]

/-! ## Reads and stores at an offset -/

/-- The `width` bytes at `off`; `none` when they do not all lie in the buffer. -/
def slice (buf : List UInt8) (off width : Nat) : Option (List UInt8) :=
  if off + width ≤ buf.length then some ((buf.drop off).take width) else none

theorem slice_eq (buf : List UInt8) (off width : Nat) :
    slice buf off width = if off + width ≤ buf.length then some ((buf.drop off).take width) else none :=
  rfl

/-- A number of `width` bytes at `off`, least significant byte first. -/
def readLe (buf : List UInt8) (off width : Nat) : Option Nat :=
  (slice buf off width).map decodeLe

theorem readLe_eq (buf : List UInt8) (off width : Nat) :
    readLe buf off width = (slice buf off width).map decodeLe := rfl

/-- A number of `width` bytes at `off`, most significant byte first. -/
def readBe (buf : List UInt8) (off width : Nat) : Option Nat :=
  (slice buf off width).map decodeBe

theorem readBe_eq (buf : List UInt8) (off width : Nat) :
    readBe buf off width = (slice buf off width).map decodeBe := rfl

/-- Store `bytes` at `off`, as a `memcpy` into the buffer does. -/
def overwrite (buf : List UInt8) (off : Nat) (bytes : List UInt8) : List UInt8 :=
  buf.take off ++ bytes ++ buf.drop (off + bytes.length)

theorem overwrite_eq (buf : List UInt8) (off : Nat) (bytes : List UInt8) :
    overwrite buf off bytes = buf.take off ++ bytes ++ buf.drop (off + bytes.length) := rfl

theorem exists_eq_append_of_le_length {buf : List UInt8} {width : Nat} (long : width ≤ buf.length) :
    ∃ front back, front.length = width ∧ buf = front ++ back :=
  ⟨buf.take width, buf.drop width, by simp [long], (List.take_append_drop width buf).symm⟩

theorem slice_eq_none_iff {buf : List UInt8} {off width : Nat} :
    slice buf off width = none ↔ buf.length < off + width := by
  rw [slice_eq]
  split <;> simp_all

theorem readLe_eq_none_iff {buf : List UInt8} {off width : Nat} :
    readLe buf off width = none ↔ buf.length < off + width := by
  simp [readLe_eq, slice_eq_none_iff]

theorem readBe_eq_none_iff {buf : List UInt8} {off width : Nat} :
    readBe buf off width = none ↔ buf.length < off + width := by
  simp [readBe_eq, slice_eq_none_iff]

theorem length_of_slice_eq_some {buf bytes : List UInt8} {off width : Nat}
    (read : slice buf off width = some bytes) : bytes.length = width ∧ off + width ≤ buf.length := by
  rw [slice_eq] at read
  split at read
  · cases read
    simp only [List.length_take, List.length_drop]
    omega
  · cases read

/-- A read that ends before the end of the first part reads the first part. -/
theorem slice_append_of_add_le {pre post : List UInt8} {off width : Nat}
    (inside : off + width ≤ pre.length) : slice (pre ++ post) off width = slice pre off width := by
  have dropped : (pre ++ post).drop off = pre.drop off ++ post :=
    List.drop_append_of_le_length (by omega)
  simp only [slice_eq, List.length_append, dropped, inside, if_true,
    show off + width ≤ pre.length + post.length by omega]
  rw [List.take_append_of_le_length (by simp; omega)]

/-- A read that starts after the first part reads the second part. -/
theorem slice_append_of_le {pre post : List UInt8} {off width : Nat}
    (after : pre.length ≤ off) : slice (pre ++ post) off width = slice post (off - pre.length) width := by
  obtain ⟨rest, rfl⟩ : ∃ rest, off = pre.length + rest := ⟨off - pre.length, by omega⟩
  simp only [slice_eq, List.length_append, List.drop_length_add_append, Nat.add_sub_cancel_left]
  congr 1
  simp only [Nat.add_assoc, Nat.add_le_add_iff_left]

/-- The bytes at the front of a buffer are read back whole. -/
@[simp] theorem slice_front (bytes post : List UInt8) :
    slice (bytes ++ post) 0 bytes.length = some bytes := by
  rw [slice_append_of_add_le (by simp)]
  simp [slice_eq]

theorem readLe_append_of_add_le {pre post : List UInt8} {off width : Nat}
    (inside : off + width ≤ pre.length) : readLe (pre ++ post) off width = readLe pre off width := by
  simp only [readLe_eq, slice_append_of_add_le inside]

theorem readLe_append_of_le {pre post : List UInt8} {off width : Nat}
    (after : pre.length ≤ off) : readLe (pre ++ post) off width = readLe post (off - pre.length) width := by
  simp only [readLe_eq, slice_append_of_le after]

theorem readBe_append_of_le {pre post : List UInt8} {off width : Nat}
    (after : pre.length ≤ off) : readBe (pre ++ post) off width = readBe post (off - pre.length) width := by
  simp only [readBe_eq, slice_append_of_le after]

@[simp] theorem readLe_front (width value : Nat) (post : List UInt8) :
    readLe (encodeLe width value ++ post) 0 width = some (value % 256 ^ width) := by
  have read := slice_front (encodeLe width value) post
  rw [length_encodeLe] at read
  simp [readLe_eq, read]

@[simp] theorem readBe_front (width value : Nat) (post : List UInt8) :
    readBe (encodeBe width value ++ post) 0 width = some (value % 256 ^ width) := by
  have read := slice_front (encodeBe width value) post
  rw [length_encodeBe] at read
  simp [readBe_eq, read]

/-- A store after the first part stores into the second part. -/
theorem overwrite_append_of_le {pre post : List UInt8} {off : Nat} (bytes : List UInt8)
    (after : pre.length ≤ off) :
    overwrite (pre ++ post) off bytes = pre ++ overwrite post (off - pre.length) bytes := by
  obtain ⟨rest, rfl⟩ : ∃ rest, off = pre.length + rest := ⟨off - pre.length, by omega⟩
  simp only [overwrite_eq, List.take_append, Nat.add_assoc, List.drop_length_add_append,
    Nat.add_sub_cancel_left, List.append_assoc, List.take_of_length_le (Nat.le_add_right _ rest)]

/-- A store over the whole front part replaces it. -/
theorem overwrite_front {old post : List UInt8} (bytes : List UInt8)
    (sameLength : bytes.length = old.length) : overwrite (old ++ post) 0 bytes = bytes ++ post := by
  simp [overwrite_eq, sameLength]

theorem length_overwrite {buf : List UInt8} {off : Nat} {bytes : List UInt8}
    (inside : off + bytes.length ≤ buf.length) : (overwrite buf off bytes).length = buf.length := by
  simp only [overwrite_eq, List.length_append, List.length_take, List.length_drop]
  omega

/-- A store of a whole buffer's length replaces it. -/
theorem overwrite_whole {buf bytes : List UInt8} (sameLength : bytes.length = buf.length) :
    overwrite buf 0 bytes = bytes := by
  simp [overwrite_eq, sameLength]

/-- A store leaves alone the bytes before it. -/
theorem slice_overwrite_of_add_le {buf bytes : List UInt8} {pos off width : Nat}
    (before : off + width ≤ pos) (fits : pos ≤ buf.length) :
    slice (overwrite buf pos bytes) off width = slice buf off width := by
  have front : (buf.take pos).length = pos := List.length_take_of_le fits
  have whole : slice buf off width = slice (buf.take pos) off width := by
    conv_lhs => rw [← List.take_append_drop pos buf]
    exact slice_append_of_add_le (by omega)
  rw [whole, overwrite_eq, List.append_assoc, slice_append_of_add_le (by omega)]

/-- A store leaves alone the bytes after it. -/
theorem slice_overwrite_of_le {buf bytes : List UInt8} {pos off width : Nat}
    (after : pos + bytes.length ≤ off) (fits : pos + bytes.length ≤ buf.length) :
    slice (overwrite buf pos bytes) off width = slice buf off width := by
  have front : (buf.take pos ++ bytes).length = pos + bytes.length := by
    simp only [List.length_append, List.length_take]
    omega
  have whole : slice buf off width =
      slice (buf.drop (pos + bytes.length)) (off - (pos + bytes.length)) width := by
    conv_lhs => rw [← List.take_append_drop (pos + bytes.length) buf]
    rw [slice_append_of_le (by simp only [List.length_take]; omega)]
    simp only [List.length_take, Nat.min_eq_left fits]
  rw [whole, overwrite_eq, slice_append_of_le (by omega), front]

/-- The stored bytes are read back from where they were stored. -/
theorem slice_overwrite_inside {buf bytes : List UInt8} {pos off width : Nat}
    (inside : off + width ≤ bytes.length) (fits : pos + bytes.length ≤ buf.length) :
    slice (overwrite buf pos bytes) (pos + off) width = slice bytes off width := by
  have front : (buf.take pos).length = pos := List.length_take_of_le (by omega)
  rw [overwrite_eq, slice_append_of_add_le (by simp only [List.length_append, front]; omega),
    slice_append_of_le (by omega), front, Nat.add_sub_cancel_left]

/-- The first `width` bytes of a slice are the shorter slice. -/
theorem map_take_slice {buf : List UInt8} {off len width : Nat} (shorter : width ≤ len)
    (inside : off + len ≤ buf.length) : (slice buf off len).map (List.take width) = slice buf off width := by
  rw [slice_eq, slice_eq, if_pos inside, if_pos (by omega), Option.map_some, List.take_take, Nat.min_eq_left shorter]

/-- A read inside bytes that were read is a read of the buffer. -/
theorem slice_of_slice {buf bytes : List UInt8} {src len off width : Nat} (read : slice buf src len = some bytes)
    (inside : off + width ≤ len) : slice bytes off width = slice buf (src + off) width := by
  obtain ⟨sameLength, fits⟩ := length_of_slice_eq_some read
  simp only [slice_eq] at read ⊢
  rw [if_pos fits, Option.some_inj] at read
  subst read
  rw [if_pos (by omega), if_pos (by omega), List.drop_take, List.take_take, List.drop_drop,
    Nat.min_eq_left (by omega)]

theorem readLe_overwrite_of_add_le {buf bytes : List UInt8} {pos off width : Nat}
    (before : off + width ≤ pos) (fits : pos ≤ buf.length) :
    readLe (overwrite buf pos bytes) off width = readLe buf off width := by
  simp only [readLe_eq, slice_overwrite_of_add_le before fits]

theorem readLe_overwrite_of_le {buf bytes : List UInt8} {pos off width : Nat}
    (after : pos + bytes.length ≤ off) (fits : pos + bytes.length ≤ buf.length) :
    readLe (overwrite buf pos bytes) off width = readLe buf off width := by
  simp only [readLe_eq, slice_overwrite_of_le after fits]

end Bytes
