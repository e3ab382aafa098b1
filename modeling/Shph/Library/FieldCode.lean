/-
Encodings that are written field after field.  An encoding determines a view
of what it encodes when two encodings, each with something behind it, can only
agree if the views and the rests agree; such encodings can be put one behind
the other.
-/
import Shph.Library.Record

namespace FieldCode

open ByteCodec

universe u v w

variable {α : Type u} {β : Type v} {γ : Type w}

/-- On its domain the code can be read off the front of a byte string, as far
as the view is concerned. -/
def Determines (domain : α → Prop) (code : α → Bytes) (view : α → β) : Prop :=
  ∀ ⦃left right : α⦄ ⦃restLeft restRight : Bytes⦄, domain left →
    domain right → code left ++ restLeft = code right ++ restRight →
      view left = view right ∧ restLeft = restRight

variable {domain : α → Prop} {code : α → Bytes} {view : α → β}

theorem Determines.eq (hcode : Determines domain code view) {left right : α}
    (hleft : domain left) (hright : domain right)
    (heq : code left = code right) : view left = view right := by
  have hnil : code left ++ [] = code right ++ [] := by
    rw [heq]
  exact (hcode hleft hright hnil).1

theorem Determines.append {next : α → Bytes} {more : α → γ}
    (hcode : Determines domain code view)
    (hnext : Determines domain next more) :
    Determines domain (fun item => code item ++ next item)
      (fun item => (view item, more item)) := by
  intro left right restLeft restRight hleft hright heq
  dsimp only at heq
  rw [List.append_assoc, List.append_assoc] at heq
  obtain ⟨hview, hrest⟩ := hcode hleft hright heq
  obtain ⟨hmore, hend⟩ := hnext hleft hright hrest
  exact ⟨Prod.ext hview hmore, hend⟩

/-- The code of a part of an item. -/
theorem Determines.part {whole : Type w} {inner : whole → Prop}
    (hcode : Determines domain code view) (part : whole → α)
    (hinner : ∀ item, inner item → domain (part item)) :
    Determines inner (fun item => code (part item))
      (fun item => view (part item)) :=
  fun _ _ _ _ hleft hright heq =>
    hcode (hinner _ hleft) (hinner _ hright) heq

theorem determines_const (domain : α → Prop) (bytes : Bytes) :
    Determines domain (fun _ => bytes) (fun _ => ()) := by
  intro _ _ restLeft restRight _ _ heq
  exact ⟨rfl, List.append_cancel_left heq⟩

theorem determines_fixed (width : Nat) :
    Determines (fun _ => True) (fun bytes : FixedBytes width => bytes.val)
      id := by
  intro left right restLeft restRight _ _ heq
  exact FixedBytes.append_inj heq

theorem determines_number (width : Nat) :
    Determines (fun number => number < 256 ^ width) (bigEndian width) id := by
  intro left right restLeft restRight hleft hright heq
  obtain ⟨hstart, hrest⟩ := List.append_inj heq (by simp)
  exact ⟨bigEndian_inj hleft hright hstart, hrest⟩

theorem determines_u64 :
    Determines (fun _ => True) (fun number : UInt64 =>
      bigEndian 8 number.toNat) id := by
  intro left right restLeft restRight _ _ heq
  obtain ⟨hnumber, hrest⟩ :=
    determines_number 8 left.toNat_lt right.toNat_lt heq
  exact ⟨UInt64.toNat_inj.mp hnumber, hrest⟩

theorem determines_u16 :
    Determines (fun _ => True) (fun number : UInt16 =>
      bigEndian 2 number.toNat) id := by
  intro left right restLeft restRight _ _ heq
  obtain ⟨hnumber, hrest⟩ :=
    determines_number 2 left.toNat_lt right.toNat_lt heq
  exact ⟨UInt16.toNat_inj.mp hnumber, hrest⟩

/-- A byte string behind its length. -/
theorem determines_prefixed (width : Nat) :
    Determines (fun bytes : Bytes => bytes.length < 256 ^ width)
      (fun bytes => bigEndian width bytes.length ++ bytes) id := by
  intro left right restLeft restRight hleft hright heq
  dsimp only at heq
  rw [List.append_assoc, List.append_assoc] at heq
  exact Record.prefixed_append_inj hleft hright heq

/-- An optional item behind a byte that says whether it is there. -/
def optional (code : α → Bytes) : Option α → Bytes
  | some item => 1 :: code item
  | none => [0]

theorem determines_optional (hcode : Determines domain code id) :
    Determines (fun item => ∀ inner, item = some inner → domain inner)
      (optional code) id := by
  intro left right restLeft restRight hleft hright heq
  cases left with
  | none =>
      cases right with
      | none => exact ⟨rfl, (List.cons.inj heq).2⟩
      | some item => exact absurd (List.cons.inj heq).1 (by decide)
  | some item =>
      cases right with
      | none => exact absurd (List.cons.inj heq).1 (by decide)
      | some other =>
          obtain ⟨hitem, hrest⟩ := hcode (hleft item rfl) (hright other rfl)
            (List.cons.inj heq).2
          exact ⟨congrArg some hitem, hrest⟩

/-- The items of a list one behind the other, for lists of one length. -/
theorem flatMap_append_inj (hcode : Determines domain code id)
    {left right : List α} {restLeft restRight : Bytes}
    (hleft : ∀ item ∈ left, domain item)
    (hright : ∀ item ∈ right, domain item)
    (hlength : left.length = right.length)
    (heq : left.flatMap code ++ restLeft = right.flatMap code ++ restRight) :
    left = right ∧ restLeft = restRight := by
  induction left generalizing right with
  | nil =>
      obtain rfl := List.length_eq_zero_iff.mp hlength.symm
      exact ⟨rfl, heq⟩
  | cons item left ih =>
      cases right with
      | nil => simp at hlength
      | cons other right =>
          rw [List.forall_mem_cons] at hleft hright
          rw [List.flatMap_cons, List.flatMap_cons, List.append_assoc,
            List.append_assoc] at heq
          obtain ⟨hitem, hitems⟩ := hcode hleft.1 hright.1 heq
          obtain ⟨hlist, hrest⟩ := ih hleft.2 hright.2
            (Nat.succ.inj hlength) hitems
          exact ⟨List.cons_eq_cons.mpr ⟨hitem, hlist⟩, hrest⟩

/-- The items of a list behind their number. -/
theorem determines_counted (width : Nat) (hcode : Determines domain code id) :
    Determines (fun items : List α => items.length < 256 ^ width ∧
        ∀ item ∈ items, domain item)
      (fun items => bigEndian width items.length ++ items.flatMap code)
      id := by
  intro left right restLeft restRight hleft hright heq
  dsimp only at heq
  rw [List.append_assoc, List.append_assoc] at heq
  obtain ⟨hlength, hitems⟩ :=
    determines_number width hleft.1 hright.1 heq
  exact flatMap_append_inj hcode hleft.2 hright.2 hlength hitems

end FieldCode
