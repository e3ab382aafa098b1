/-
Computations that stop at the first check that fails, for any type of errors.
-/
import Mathlib

namespace Checked

universe u v w

variable {E : Type u} {A : Type v} {B : Type w}

/-- Stop with the error unless the condition holds. -/
def require (condition : Prop) [Decidable condition] (error : E) :
    Except E Unit :=
  if condition then .ok () else .error error

/-- The value, or stop with the error. -/
def valueOr (value : Option A) (error : E) : Except E A :=
  match value with
  | some value => .ok value
  | none => .error error

@[simp] theorem require_eq_ok_iff {condition : Prop} [Decidable condition]
    {error : E} {result : Unit} :
    require condition error = .ok result ↔ condition := by
  unfold require
  split <;> simp_all

@[simp] theorem valueOr_eq_ok_iff {value : Option A} {error : E}
    {result : A} : valueOr value error = .ok result ↔ value = some result := by
  cases value <;> simp [valueOr]

theorem pure_eq_ok {value result : A} :
    (pure value : Except E A) = .ok result ↔ value = result :=
  ⟨Except.ok.inj, congrArg _⟩

/-- The rule that peels one step off a computation that got through. -/
theorem bind_eq_ok {A B : Type v} {first : Except E A}
    {rest : A → Except E B} {result : B} :
    (first >>= rest) = .ok result ↔
      ∃ value, first = .ok value ∧ rest value = .ok result := by
  cases first with
  | error error => simp [bind, Except.bind]
  | ok value => simp [bind, Except.bind]

/-- The same for a step that is only a check. -/
theorem then_eq_ok {B : Type} {first : Except E Unit}
    {rest : Unit → Except E B} {result : B} :
    (first >>= rest) = .ok result ↔
      first = .ok () ∧ rest () = .ok result := by
  rw [bind_eq_ok]
  exact ⟨fun ⟨_, hfirst, hrest⟩ => ⟨hfirst, hrest⟩,
    fun ⟨hfirst, hrest⟩ => ⟨(), hfirst, hrest⟩⟩

/-- Check the items one after the other. -/
def checkEach (check : A → Except E Unit) : List A → Except E Unit
  | [] => .ok ()
  | item :: rest =>
      match check item with
      | .ok _ => checkEach check rest
      | .error error => .error error

@[simp] theorem checkEach_eq_ok_iff {check : A → Except E Unit}
    {items : List A} {result : Unit} :
    checkEach check items = .ok result ↔
      ∀ item ∈ items, check item = .ok () := by
  induction items with
  | nil => simp [checkEach]
  | cons item rest ih =>
      rw [checkEach, List.forall_mem_cons]
      split
      · rename_i hcheck
        simp [hcheck, ih]
      · rename_i error hcheck
        simp [hcheck]

/-- Check the items one after the other, each between two checks for being
new: the label of an item must not be among those seen. -/
def checkDistinct [DecidableEq B] (check after : A → Except E Unit)
    (label : A → B) (duplicate : E) : List B → List A → Except E Unit
  | _, [] => .ok ()
  | seen, item :: rest =>
      match check item with
      | .error error => .error error
      | .ok _ =>
          if label item ∈ seen then .error duplicate
          else
            match after item with
            | .error error => .error error
            | .ok _ =>
                checkDistinct check after label duplicate
                  (label item :: seen) rest

theorem checkDistinct_eq_ok_iff [DecidableEq B]
    {check after : A → Except E Unit} {label : A → B} {duplicate : E}
    {seen : List B} {items : List A} {result : Unit} :
    checkDistinct check after label duplicate seen items = .ok result ↔
      (∀ item ∈ items, check item = .ok () ∧ after item = .ok ()) ∧
        (items.map label).Nodup ∧ ∀ item ∈ items, label item ∉ seen := by
  induction items generalizing seen with
  | nil => simp [checkDistinct]
  | cons item rest ih =>
      rw [checkDistinct, List.map_cons, List.nodup_cons,
        List.forall_mem_cons, List.forall_mem_cons]
      split
      · rename_i error hcheck
        simp [hcheck]
      · rename_i hcheck
        split
        · rename_i hseen
          simp [hseen]
        · rename_i hnew
          split
          · rename_i error hafter
            simp [hafter]
          · rename_i hafter
            rw [ih]
            simp only [hcheck, hafter, hnew, List.mem_map, List.mem_cons,
              not_or, not_exists, not_and]
            grind

end Checked
