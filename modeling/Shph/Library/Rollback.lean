/-
Changes made one after the other and taken back in the opposite order.  Every
call may fail.  Adding stops at the first failure and returns what was added
so far; taking back goes on after a failure and returns what is still there.
-/
import Mathlib

namespace Rollback

universe u v w x

variable {S : Type u} {E : Type v} {A : Type w} {B : Type x}

/-- Add the items in order.  A call answers whether it made the change. -/
def addEach (add : A → S → Except E Bool × S) :
    List A → S → (Except E Unit × List A) × S
  | [], state => ((.ok (), []), state)
  | item :: rest, state =>
      match add item state with
      | (.error error, next) => ((.error error, []), next)
      | (.ok added, next) =>
          let ((result, kept), last) := addEach add rest next
          ((result, if added then item :: kept else kept), last)

/-- Take the items back from the last to the first.  The errors come in the
order they were met, the items that stayed in the order they were given. -/
def undoEach (undo : A → S → Except E Unit × S) :
    List A → S → (List E × List A) × S
  | [], state => (([], []), state)
  | item :: rest, state =>
      let later := undoEach undo rest state
      match undo item later.2 with
      | (.ok _, last) => (later.1, last)
      | (.error error, last) =>
          ((later.1.1 ++ [error], item :: later.1.2), last)

section Add

variable {add : A → S → Except E Bool × S}

theorem addEach_cons_error {item : A} {rest : List A} {state next : S}
    {error : E} (hadd : add item state = (.error error, next)) :
    addEach add (item :: rest) state = ((.error error, []), next) := by
  rw [addEach, hadd]

theorem addEach_cons_ok {item : A} {rest : List A} {state next : S}
    {added : Bool} (hadd : add item state = (.ok added, next)) :
    addEach add (item :: rest) state =
      (((addEach add rest next).1.1,
        if added then item :: (addEach add rest next).1.2
        else (addEach add rest next).1.2), (addEach add rest next).2) := by
  rw [addEach, hadd]

/-- What the call keeps for every item, the loop keeps. -/
theorem addEach_invariant {P : S → Prop} {items : List A} {state : S}
    (hadd : ∀ item ∈ items, ∀ state, P state → P (add item state).2)
    (hstate : P state) : P (addEach add items state).2 := by
  induction items generalizing state with
  | nil => exact hstate
  | cons item rest ih =>
      rw [List.forall_mem_cons] at hadd
      have hnext := hadd.1 state hstate
      rcases hcall : add item state with ⟨error | added, next⟩
      · rw [addEach_cons_error hcall]
        rwa [hcall] at hnext
      · rw [addEach_cons_ok hcall]
        rw [hcall] at hnext
        exact ih hadd.2 hnext

/-- Whatever is there after the loop was there before it, or the loop returns
it. -/
theorem addEach_present {present : S → List B} {label : A → B}
    (hadd : ∀ item state, ∀ entry ∈ present (add item state).2,
      entry ∈ present state ∨
        (add item state).1 = .ok true ∧ entry = label item)
    (items : List A) (state : S) :
    ∀ entry ∈ present (addEach add items state).2,
      entry ∈ present state ∨
        entry ∈ (addEach add items state).1.2.map label := by
  induction items generalizing state with
  | nil => exact fun entry hentry => .inl hentry
  | cons item rest ih =>
      intro entry hentry
      have hstep := hadd item state entry
      rcases hcall : add item state with ⟨error | added, next⟩
      · rw [addEach_cons_error hcall] at hentry
        rw [hcall] at hstep
        rcases hstep hentry with hold | ⟨hanswer, -⟩
        · exact .inl hold
        · cases hanswer
      · rw [addEach_cons_ok hcall] at hentry ⊢
        rw [hcall] at hstep
        rcases ih next entry hentry with hnext | hkept
        · rcases hstep hnext with hold | ⟨hanswer, hlabel⟩
          · exact .inl hold
          · cases hanswer
            exact .inr (by simp [hlabel])
        · right
          cases added with
          | false => exact hkept
          | true => exact List.mem_cons_of_mem _ hkept

/-- When no call answers that there was nothing to do, a loop that gets
through returns all items. -/
theorem addEach_all {items : List A} {state : S}
    (hadd : ∀ item state, (add item state).1 ≠ .ok false)
    (hok : (addEach add items state).1.1 = .ok ()) :
    (addEach add items state).1.2 = items := by
  induction items generalizing state with
  | nil => rfl
  | cons item rest ih =>
      have hanswer := hadd item state
      rcases hcall : add item state with ⟨error | added, next⟩
      · rw [addEach_cons_error hcall] at hok
        cases hok
      · rw [addEach_cons_ok hcall] at hok ⊢
        rw [hcall] at hanswer
        cases added with
        | false => exact absurd rfl hanswer
        | true => exact congrArg (item :: ·) (ih hok)

theorem addEach_sublist (items : List A) (state : S) :
    List.Sublist (addEach add items state).1.2 items := by
  induction items generalizing state with
  | nil => exact List.Sublist.refl _
  | cons item rest ih =>
      rcases hcall : add item state with ⟨error | added, next⟩
      · rw [addEach_cons_error hcall]
        exact List.nil_sublist _
      · rw [addEach_cons_ok hcall]
        cases added with
        | false => exact (ih next).cons item
        | true => exact (ih next).cons_cons item

theorem addEach_subset (items : List A) (state : S) :
    (addEach add items state).1.2 ⊆ items :=
  (addEach_sublist items state).subset

end Add

section Undo

variable {undo : A → S → Except E Unit × S}

theorem undoEach_cons_ok {item : A} {rest : List A} {state last : S}
    {result : Unit}
    (hundo : undo item (undoEach undo rest state).2 = (.ok result, last)) :
    undoEach undo (item :: rest) state =
      ((undoEach undo rest state).1, last) := by
  simp only [undoEach, hundo]

theorem undoEach_cons_error {item : A} {rest : List A} {state last : S}
    {error : E}
    (hundo : undo item (undoEach undo rest state).2 = (.error error, last)) :
    undoEach undo (item :: rest) state =
      (((undoEach undo rest state).1.1 ++ [error],
        item :: (undoEach undo rest state).1.2), last) := by
  simp only [undoEach, hundo]

theorem undoEach_invariant {P : S → Prop}
    (hundo : ∀ item state, P state → P (undo item state).2)
    (items : List A) {state : S} (hstate : P state) :
    P (undoEach undo items state).2 := by
  induction items with
  | nil => exact hstate
  | cons item rest ih =>
      have hlast := hundo item _ ih
      rcases hcall : undo item (undoEach undo rest state).2 with
        ⟨error | result, last⟩
      · rw [undoEach_cons_error hcall]
        rwa [hcall] at hlast
      · rw [undoEach_cons_ok hcall]
        rwa [hcall] at hlast

/-- Calls that add nothing make a loop that adds nothing. -/
theorem undoEach_shrinks {present : S → List B}
    (hshrink : ∀ item state, present (undo item state).2 ⊆ present state)
    (items : List A) (state : S) :
    present (undoEach undo items state).2 ⊆ present state :=
  undoEach_invariant (P := fun between => present between ⊆ present state)
    (fun item between hbetween =>
      List.Subset.trans (hshrink item between) hbetween)
    items (List.Subset.refl _)

/-- An item that is still there is one of those returned: a call that succeeds
removes its item, and no later call brings it back. -/
theorem undoEach_present {present : S → List B} {label : A → B}
    (hshrink : ∀ item state, present (undo item state).2 ⊆ present state)
    (hgone : ∀ item state, (undo item state).1 = .ok () →
      label item ∉ present (undo item state).2)
    (items : List A) (state : S) :
    ∀ item ∈ items, label item ∈ present (undoEach undo items state).2 →
      label item ∈ (undoEach undo items state).1.2.map label := by
  induction items with
  | nil => exact fun item hitem => absurd hitem List.not_mem_nil
  | cons first rest ih =>
      intro item hitem hpresent
      have hsmaller := hshrink first (undoEach undo rest state).2
      have hremoved := hgone first (undoEach undo rest state).2
      rcases hcall : undo first (undoEach undo rest state).2 with
        ⟨error | result, last⟩
      · rw [undoEach_cons_error hcall] at hpresent ⊢
        rw [hcall] at hsmaller
        rcases List.mem_cons.mp hitem with rfl | hrest
        · exact List.mem_cons_self
        · exact List.mem_cons_of_mem _ (ih item hrest (hsmaller hpresent))
      · rw [undoEach_cons_ok hcall] at hpresent ⊢
        rw [hcall] at hsmaller hremoved
        rcases List.mem_cons.mp hitem with rfl | hrest
        · exact absurd hpresent (hremoved rfl)
        · exact ih item hrest (hsmaller hpresent)

theorem undoEach_subset (items : List A) (state : S) :
    (undoEach undo items state).1.2 ⊆ items := by
  induction items with
  | nil => exact List.Subset.refl _
  | cons item rest ih =>
      rcases hcall : undo item (undoEach undo rest state).2 with
        ⟨error | result, last⟩
      · rw [undoEach_cons_error hcall]
        exact List.cons_subset_cons item ih
      · rw [undoEach_cons_ok hcall]
        exact List.subset_cons_of_subset item ih

/-- Without an error nothing stayed. -/
theorem undoEach_kept_nil {items : List A} {state : S}
    (herrors : (undoEach undo items state).1.1 = []) :
    (undoEach undo items state).1.2 = [] := by
  induction items with
  | nil => rfl
  | cons item rest ih =>
      rcases hcall : undo item (undoEach undo rest state).2 with
        ⟨error | result, last⟩
      · rw [undoEach_cons_error hcall] at herrors
        simp at herrors
      · rw [undoEach_cons_ok hcall] at herrors ⊢
        exact ih herrors

end Undo

end Rollback
