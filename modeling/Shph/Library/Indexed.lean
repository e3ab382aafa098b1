/-
Computations that index and slice.  An access out of bounds stops the
computation with a fault of its own, apart from the errors that it returns, so
that its absence can be stated and proved.
-/
import Shph.Library.Checked

namespace Indexed

universe u

/-- Why a computation stopped early. -/
inductive Stop (E : Type u) where
  | returned (error : E)
  | outOfBounds
deriving Repr, DecidableEq

variable {E A B : Type}

/-- Return the error unless the condition holds. -/
def check (condition : Prop) [Decidable condition] (error : E) :
    Except (Stop E) Unit :=
  if condition then .ok () else .error (.returned error)

/-- A computation that does not index. -/
def lift : Except E A → Except (Stop E) A
  | .ok value => .ok value
  | .error error => .error (.returned error)

/-- The item at a position. -/
def at? (items : List A) (index : Nat) : Except (Stop E) A :=
  match items[index]? with
  | some item => .ok item
  | none => .error .outOfBounds

/-- The items from `start` up to `stop`. -/
def range? (items : List A) (start stop : Nat) : Except (Stop E) (List A) :=
  if start ≤ stop ∧ stop ≤ items.length then
    .ok ((items.drop start).take (stop - start))
  else .error .outOfBounds

@[simp] theorem check_eq_ok_iff {condition : Prop} [Decidable condition]
    {error : E} {result : Unit} :
    check condition error = .ok result ↔ condition := by
  unfold check
  split <;> simp_all

@[simp] theorem at?_eq_ok_iff {items : List A} {index : Nat} {item : A} :
    at? (E := E) items index = .ok item ↔ items[index]? = some item := by
  unfold at?
  cases items[index]? <;> simp

@[simp] theorem range?_eq_ok_iff {items part : List A} {start stop : Nat} :
    range? (E := E) items start stop = .ok part ↔
      (start ≤ stop ∧ stop ≤ items.length) ∧
        (items.drop start).take (stop - start) = part := by
  unfold range?
  by_cases hbounds : start ≤ stop ∧ stop ≤ items.length
  · simp [hbounds]
  · simp [hbounds]

/-- No access of the computation is out of bounds. -/
def Safe (computation : Except (Stop E) A) : Prop :=
  computation ≠ .error .outOfBounds

theorem safe_ok (value : A) : Safe (.ok value : Except (Stop E) A) := by
  simp [Safe]

theorem safe_returned (error : E) :
    Safe (.error (.returned error) : Except (Stop E) A) := by
  simp [Safe]

theorem safe_check (condition : Prop) [Decidable condition] (error : E) :
    Safe (check condition error) := by
  unfold check
  split
  · exact safe_ok ()
  · exact safe_returned error

theorem safe_lift (result : Except E A) : Safe (lift result) := by
  cases result with
  | ok value => exact safe_ok value
  | error error => exact safe_returned error

theorem safe_at? {items : List A} {index : Nat}
    (hindex : index < items.length) : Safe (at? (E := E) items index) := by
  unfold at?
  rw [List.getElem?_eq_getElem hindex]
  exact safe_ok _

theorem safe_range? {items : List A} {start stop : Nat}
    (hstart : start ≤ stop) (hstop : stop ≤ items.length) :
    Safe (range? (E := E) items start stop) := by
  unfold range?
  rw [if_pos ⟨hstart, hstop⟩]
  exact safe_ok _

/-- A computation is safe if its first step is and the rest is for whatever
the first step gives. -/
theorem safe_bind {first : Except (Stop E) A}
    {rest : A → Except (Stop E) B} (hfirst : Safe first)
    (hrest : ∀ value, first = .ok value → Safe (rest value)) :
    Safe (first >>= rest) := by
  cases first with
  | ok value => exact hrest value rfl
  | error stop =>
      cases stop with
      | returned error => exact safe_returned error
      | outOfBounds => exact absurd rfl hfirst

/-- The same for a first step that is only a check. -/
theorem safe_check_bind {condition : Prop} [Decidable condition] {error : E}
    {rest : Unit → Except (Stop E) B} (hrest : condition → Safe (rest ())) :
    Safe (check condition error >>= rest) :=
  safe_bind (safe_check condition error)
    fun _ hcheck => hrest (check_eq_ok_iff.mp hcheck)

end Indexed
