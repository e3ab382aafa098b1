/-
Orders to sort by: a comparison of one part of the items, refined by
comparisons of further parts.  Sorting does not depend on the order in which
the items come, as long as items that compare equal are equal.
-/
import Shph.Library.Bytes

namespace SortOrder

universe u v

variable {α : Type u} {β : Type v}

structure TotalPreorder (le : α → α → Bool) : Prop where
  trans : ∀ a b c, le a b → le b c → le a c
  total : ∀ a b, le a b || le b a

/-- Compare a part of the items. -/
def byPart (part : α → β) (le : β → β → Bool) : α → α → Bool :=
  fun left right => le (part left) (part right)

/-- Compare by the first order, and by the second where it sees no
difference. -/
def andThen (first second : α → α → Bool) : α → α → Bool :=
  fun left right =>
    first left right && (!first right left || second left right)

theorem TotalPreorder.byPart {le : β → β → Bool} (hle : TotalPreorder le)
    (part : α → β) : TotalPreorder (byPart part le) where
  trans a b c := hle.trans (part a) (part b) (part c)
  total a b := hle.total (part a) (part b)

theorem TotalPreorder.andThen {first second : α → α → Bool}
    (hfirst : TotalPreorder first) (hsecond : TotalPreorder second) :
    TotalPreorder (andThen first second) where
  trans a b c := by
    have hab := hfirst.trans a b c
    have hca := hfirst.trans c a b
    have hbc := hfirst.trans b c a
    have habc := hsecond.trans a b c
    simp only [SortOrder.andThen, Bool.and_eq_true, Bool.or_eq_true,
      Bool.not_eq_true']
    grind
  total a b := by
    have hone := hfirst.total a b
    have htwo := hsecond.total a b
    simp only [SortOrder.andThen, Bool.or_eq_true, Bool.and_eq_true,
      Bool.not_eq_true'] at hone htwo ⊢
    grind

theorem andThen_both {first second : α → α → Bool} {left right : α}
    (hle : andThen first second left right = true)
    (hge : andThen first second right left = true) :
    (first left right = true ∧ first right left = true) ∧
      (second left right = true ∧ second right left = true) := by
  simp only [andThen, Bool.and_eq_true, Bool.or_eq_true, Bool.not_eq_true']
    at hle hge
  grind

theorem totalPreorder_lexLe : TotalPreorder ByteCodec.lexLe where
  trans _ _ _ := ByteCodec.lexLe_trans
  total a b := by
    rw [Bool.or_eq_true]
    exact ByteCodec.lexLe_total a b

theorem totalPreorder_nat : TotalPreorder fun a b : Nat => decide (a ≤ b) where
  trans a b c := by
    simp only [decide_eq_true_eq]
    omega
  total a b := by
    simp only [Bool.or_eq_true, decide_eq_true_eq]
    omega

/-- Lists of the same items sort to the same list. -/
theorem mergeSort_eq_of_perm {le : α → α → Bool} (hle : TotalPreorder le)
    {left right : List α} (hperm : left.Perm right)
    (hanti : ∀ a ∈ left, ∀ b ∈ left, le a b = true → le b a = true → a = b) :
    left.mergeSort le = right.mergeSort le := by
  have hleft := List.mergeSort_perm left le
  have hright := List.mergeSort_perm right le
  apply List.Perm.eq_of_pairwise ?_
    (List.pairwise_mergeSort hle.trans hle.total left)
    (List.pairwise_mergeSort hle.trans hle.total right)
    (hleft.trans (hperm.trans hright.symm))
  intro a b ha hb hab hba
  exact hanti a (hleft.mem_iff.mp ha) b
    (hperm.mem_iff.mpr (hright.mem_iff.mp hb)) hab hba

end SortOrder
