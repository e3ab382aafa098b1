/-
Queues whose order is kept in the keys of their items.  The items are listed
in any order; sorting by key recovers the queue exactly when the keys increase
strictly along it.
-/
import Mathlib

namespace SortedQueue

variable {α : Type*} {le : α → α → Bool}

/-- Every item comes strictly before the items behind it. -/
def Increasing (le : α → α → Bool) (queue : List α) : Prop :=
  queue.Pairwise fun left right =>
    le left right = true ∧ le right left = false

theorem Increasing.eq_of_le {queue : List α} (hqueue : Increasing le queue)
    {left right : α} (hleft : left ∈ queue) (hright : right ∈ queue)
    (hle : le left right = true) (hge : le right left = true) :
    left = right := by
  induction queue with
  | nil => simp at hleft
  | cons first rest ih =>
      obtain ⟨hfirst, hrest⟩ := List.pairwise_cons.mp hqueue
      rw [List.mem_cons] at hleft hright
      rcases hleft with rfl | hleft
      · rcases hright with rfl | hright
        · rfl
        · simp [(hfirst right hright).2] at hge
      · rcases hright with rfl | hright
        · simp [(hfirst left hleft).2] at hle
        · exact ih hrest hleft hright

/-- Whatever order the items are listed in, sorting gives the queue back. -/
theorem mergeSort_eq_of_perm (htrans : ∀ a b c : α, le a b → le b c → le a c)
    (htotal : ∀ a b : α, le a b || le b a) {listing queue : List α}
    (hperm : listing.Perm queue) (hqueue : Increasing le queue) :
    listing.mergeSort le = queue := by
  have hsorted := List.pairwise_mergeSort htrans htotal listing
  have hsame : (listing.mergeSort le).Perm queue :=
    (List.mergeSort_perm listing le).trans hperm
  apply hsame.eq_of_pairwise ?_ hsorted (hqueue.imp And.left)
  intro left right hleft hright hle hge
  exact hqueue.eq_of_le (hsame.mem_iff.mp hleft) hright hle hge

end SortedQueue
