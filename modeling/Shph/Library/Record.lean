/-
Byte streams of labelled, length-prefixed fields.  A field announces the
length of its label and of its value before either, so a stream of fields can
be taken apart in one way only.
-/
import Shph.Library.Bytes

namespace Record

open ByteCodec

/-- The widths of the two length prefixes of a field, in bytes. -/
structure Layout where
  labelWidth : Nat
  valueWidth : Nat

variable (layout : Layout)

def encodeField (field : Bytes × Bytes) : Bytes :=
  bigEndian layout.labelWidth field.1.length ++ field.1 ++
    bigEndian layout.valueWidth field.2.length ++ field.2

def encodeFields (fields : List (Bytes × Bytes)) : Bytes :=
  fields.flatMap (encodeField layout)

/-- Both lengths fit their prefixes. -/
def Fits (field : Bytes × Bytes) : Prop :=
  field.1.length < 256 ^ layout.labelWidth ∧
    field.2.length < 256 ^ layout.valueWidth

variable {layout}

theorem prefixed_append_inj {width : Nat} {left right : Bytes}
    {restLeft restRight : Bytes} (hleft : left.length < 256 ^ width)
    (hright : right.length < 256 ^ width)
    (heq : bigEndian width left.length ++ (left ++ restLeft) =
      bigEndian width right.length ++ (right ++ restRight)) :
    left = right ∧ restLeft = restRight := by
  obtain ⟨hstart, hrest⟩ := List.append_inj heq (by simp)
  exact List.append_inj hrest (bigEndian_inj hleft hright hstart)

theorem encodeField_append_inj {left right : Bytes × Bytes}
    {restLeft restRight : Bytes} (hleft : Fits layout left)
    (hright : Fits layout right)
    (heq : encodeField layout left ++ restLeft =
      encodeField layout right ++ restRight) :
    left = right ∧ restLeft = restRight := by
  simp only [encodeField, List.append_assoc] at heq
  obtain ⟨hlabel, hvalues⟩ := prefixed_append_inj hleft.1 hright.1 heq
  obtain ⟨hvalue, hrest⟩ := prefixed_append_inj hleft.2 hright.2 hvalues
  exact ⟨Prod.ext hlabel hvalue, hrest⟩

theorem encodeField_ne_nil {field : Bytes × Bytes}
    (hlabel : 0 < layout.labelWidth) : encodeField layout field ≠ [] := by
  intro hnil
  have hlength := congrArg List.length hnil
  simp only [encodeField, List.length_append, bigEndian_length,
    List.length_nil] at hlength
  omega

/-- A stream of fields determines the fields. -/
theorem encodeFields_inj (hlabel : 0 < layout.labelWidth)
    {left right : List (Bytes × Bytes)}
    (hleft : ∀ field ∈ left, Fits layout field)
    (hright : ∀ field ∈ right, Fits layout field)
    (heq : encodeFields layout left = encodeFields layout right) :
    left = right := by
  induction left generalizing right with
  | nil =>
      cases right with
      | nil => rfl
      | cons head tail =>
          have hnil := (List.append_eq_nil_iff.mp heq.symm).1
          exact absurd hnil (encodeField_ne_nil hlabel)
  | cons head tail ih =>
      cases right with
      | nil =>
          have hnil := (List.append_eq_nil_iff.mp heq).1
          exact absurd hnil (encodeField_ne_nil hlabel)
      | cons other others =>
          rw [List.forall_mem_cons] at hleft hright
          obtain ⟨hhead, htail⟩ := encodeField_append_inj hleft.1 hright.1 heq
          rw [hhead, ih hleft.2 hright.2 htail]

end Record
