/-
Byte strings that are a row of fields of fixed widths.  Cutting a string at
the offsets of the layout and putting fields together undo each other, and a
field that holds a number holds its big-endian bytes.
-/
import Shph.Library.Bytes

namespace ByteCodec

/-- The fields of these widths, from an offset on. -/
def slices (offset : Nat) : List Nat → Bytes → List Bytes
  | [], _ => []
  | width :: widths, bytes =>
      slice bytes offset width :: slices (offset + width) widths bytes

theorem slice_length {bytes : Bytes} {offset width : Nat}
    (hfits : offset + width ≤ bytes.length) :
    (slice bytes offset width).length = width := by
  rw [slice, List.length_take, List.length_drop]
  omega

/-- What follows an offset is a field and what follows the field. -/
theorem drop_eq_slice_append (bytes : Bytes) (offset width : Nat) :
    bytes.drop offset =
      slice bytes offset width ++ bytes.drop (offset + width) := by
  rw [slice, ← List.drop_drop, List.take_append_drop]

/-- A field is cut out of what follows its offset. -/
theorem slice_of_drop {bytes field rest : Bytes} {offset width : Nat}
    (hdrop : bytes.drop offset = field ++ rest) (hwidth : field.length = width) :
    slice bytes offset width = field ∧ bytes.drop (offset + width) = rest := by
  constructor
  · rw [slice, hdrop, ← hwidth, List.take_left]
  · rw [← List.drop_drop, hdrop, ← hwidth, List.drop_left]

/-- Fields of one and of two bytes, read byte by byte. -/
theorem slice_one_eq_iff {bytes : Bytes} {offset : Nat} {byte : UInt8} :
    slice bytes offset 1 = [byte] ↔ bytes[offset]? = some byte := by
  rw [slice, List.take_one, ← List.head?_drop]
  cases (bytes.drop offset).head? <;> simp

theorem slice_two_eq_iff {bytes : Bytes} {offset : Nat} {first second : UInt8} :
    slice bytes offset 2 = [first, second] ↔
      bytes[offset]? = some first ∧ bytes[offset + 1]? = some second := by
  rw [slice, ← List.head?_drop, ← List.head?_drop, ← List.drop_drop]
  rcases bytes.drop offset with _ | ⟨byte, _ | ⟨other, rest⟩⟩ <;> simp

theorem slices_append (front : Bytes) (fields : List Bytes) :
    slices front.length (fields.map List.length) (front ++ fields.flatten) =
      fields := by
  induction fields generalizing front with
  | nil => rfl
  | cons field fields ih =>
      rw [List.map_cons, slices, List.flatten_cons, slice_append rfl rfl,
        ← List.append_assoc, ← List.length_append, ih]

/-- Cutting what was put together gives the fields. -/
theorem slices_flatten {widths : List Nat} {fields : List Bytes}
    (hwidths : fields.map List.length = widths) :
    slices 0 widths fields.flatten = fields := by
  rw [← hwidths]
  exact slices_append [] fields

/-- The fields of a layout lie side by side. -/
theorem flatten_slices_eq_slice (offset : Nat) (widths : List Nat)
    (bytes : Bytes) :
    (slices offset widths bytes).flatten = slice bytes offset widths.sum := by
  induction widths generalizing offset with
  | nil => rfl
  | cons width widths ih =>
      rw [slices, List.flatten_cons, ih, List.sum_cons, slice, slice, slice,
        List.take_add, List.drop_drop]

/-- Putting together what was cut gives the bytes. -/
theorem flatten_slices {widths : List Nat} {bytes : Bytes}
    (hlength : widths.sum = bytes.length) :
    (slices 0 widths bytes).flatten = bytes := by
  rw [flatten_slices_eq_slice, hlength, slice, List.drop_zero, List.take_length]

/-- A field of a number's width holds the number exactly if it holds its
bytes. -/
theorem ofBigEndian_eq_iff {bytes : Bytes} {width number : Nat}
    (hlength : bytes.length = width) (hnumber : number < 256 ^ width) :
    ofBigEndian bytes = number ↔ bytes = bigEndian width number := by
  constructor
  · rintro rfl
    rw [← hlength, bigEndian_ofBigEndian]
  · rintro rfl
    exact ofBigEndian_bigEndian hnumber

theorem ofBigEndian_eq_toNat16_iff {bytes : Bytes} {number : UInt16}
    (hlength : bytes.length = 2) :
    UInt16.ofNat (ofBigEndian bytes) = number ↔
      bytes = bigEndian 2 number.toNat := by
  have hlt := ofBigEndian_lt bytes
  rw [← ofBigEndian_eq_iff hlength number.toNat_lt, ← UInt16.toNat_inj,
    UInt16.toNat_ofNat', Nat.mod_eq_of_lt (by simpa [hlength] using hlt)]

theorem ofBigEndian_eq_toNat32_iff {bytes : Bytes} {number : UInt32}
    (hlength : bytes.length = 4) :
    UInt32.ofNat (ofBigEndian bytes) = number ↔
      bytes = bigEndian 4 number.toNat := by
  have hlt := ofBigEndian_lt bytes
  rw [← ofBigEndian_eq_iff hlength number.toNat_lt, ← UInt32.toNat_inj,
    UInt32.toNat_ofNat', Nat.mod_eq_of_lt (by simpa [hlength] using hlt)]

theorem ofBigEndian_eq_toNat64_iff {bytes : Bytes} {number : UInt64}
    (hlength : bytes.length = 8) :
    UInt64.ofNat (ofBigEndian bytes) = number ↔
      bytes = bigEndian 8 number.toNat := by
  have hlt := ofBigEndian_lt bytes
  rw [← ofBigEndian_eq_iff hlength number.toNat_lt, ← UInt64.toNat_inj,
    UInt64.toNat_ofNat', Nat.mod_eq_of_lt (by simpa [hlength] using hlt)]

end ByteCodec
