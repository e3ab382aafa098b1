/-
Interpolation at the origin.  A polynomial is given by its list of
coefficients and evaluated by Horner's rule; its constant term is recovered
from as many points as it has coefficients.
-/
import Mathlib

namespace Interpolation

open Polynomial

universe u

variable {F : Type u} [Field F]

/-- The polynomial with these coefficients, the constant term first. -/
noncomputable def ofCoeffs : List F → F[X]
  | [] => 0
  | coeff :: coeffs => C coeff + X * ofCoeffs coeffs

def horner (coeffs : List F) (x : F) : F :=
  coeffs.foldr (fun coeff value => value * x + coeff) 0

theorem eval_ofCoeffs (coeffs : List F) (x : F) :
    (ofCoeffs coeffs).eval x = horner coeffs x := by
  induction coeffs with
  | nil => simp [ofCoeffs, horner]
  | cons coeff coeffs ih =>
      rw [ofCoeffs, eval_add, eval_C, eval_mul, eval_X, ih, add_comm,
        mul_comm x]
      rfl

theorem degree_ofCoeffs_lt (coeffs : List F) :
    (ofCoeffs coeffs).degree < (coeffs.length : WithBot Nat) := by
  induction coeffs with
  | nil => simp [ofCoeffs]
  | cons coeff coeffs ih =>
      rw [degree_lt_iff_coeff_zero] at ih ⊢
      intro index hindex
      rw [List.length_cons] at hindex
      obtain ⟨index, rfl⟩ := Nat.exists_eq_succ_of_ne_zero
        (Nat.ne_of_gt (Nat.lt_of_lt_of_le (Nat.succ_pos _) hindex))
      rw [ofCoeffs, coeff_add, coeff_C_succ, coeff_X_mul, zero_add]
      exact ih index (Nat.le_of_succ_le_succ hindex)

theorem coeff_ofCoeffs (coeffs : List F) (index : Nat) :
    (ofCoeffs coeffs).coeff index = coeffs.getD index 0 := by
  induction coeffs generalizing index with
  | nil => simp [ofCoeffs]
  | cons coeff coeffs ih =>
      cases index with
      | zero => simp [ofCoeffs]
      | succ index =>
          rw [ofCoeffs, coeff_add, coeff_C_succ, coeff_X_mul, zero_add, ih,
            List.getD_cons_succ]

/-- Coefficient lists of one length are told apart by their polynomials. -/
theorem ofCoeffs_inj {coeffs coeffs' : List F}
    (hlength : coeffs.length = coeffs'.length)
    (heq : ofCoeffs coeffs = ofCoeffs coeffs') : coeffs = coeffs' := by
  apply List.ext_getElem hlength
  intro index hleft hright
  have hcoeff := congrArg (fun f => f.coeff index) heq
  simp only [coeff_ofCoeffs] at hcoeff
  rwa [List.getD_eq_getElem _ _ hleft, List.getD_eq_getElem _ _ hright]
    at hcoeff

theorem ofCoeffs_map_coeff {f : F[X]} {count : Nat}
    (hdegree : f.degree < (count : WithBot Nat)) :
    ofCoeffs ((List.range count).map f.coeff) = f := by
  ext index
  rw [coeff_ofCoeffs]
  by_cases hindex : index < count
  · rw [List.getD_eq_getElem _ _ (by simpa using hindex)]
    simp
  · rw [List.getD_eq_default _ _ (by simpa using hindex)]
    exact ((degree_lt_iff_coeff_zero f count).mp hdegree index
      (Nat.le_of_not_lt hindex)).symm

theorem injOn_getElem {α : Type*} {points : List α} (hnodup : points.Nodup) :
    Set.InjOn (fun index : Fin points.length => points[index])
      (Finset.univ : Finset (Fin points.length)) := by
  intro left _ right _ heq
  exact Fin.ext ((hnodup.getElem_inj_iff).mp heq)

/-- At distinct points every list of values is taken, and by exactly one list
of as many coefficients. -/
theorem existsUnique_horner {points values : List F} (hnodup : points.Nodup)
    (hlength : values.length = points.length) :
    ∃! coeffs : List F, coeffs.length = points.length ∧
      points.map (horner coeffs) = values := by
  have hinj := injOn_getElem hnodup
  have hcard : (Finset.univ : Finset (Fin points.length)).card =
    points.length := by simp
  let f := Lagrange.interpolate Finset.univ
    (fun index : Fin points.length => points[index])
    (fun index : Fin points.length => values.getD index 0)
  have hdegree : f.degree < (points.length : WithBot Nat) := by
    have hlt := Lagrange.degree_interpolate_lt
      (fun index : Fin points.length => values.getD index 0) hinj
    rwa [hcard] at hlt
  refine ⟨(List.range points.length).map f.coeff, ⟨by simp, ?_⟩, ?_⟩
  · apply List.ext_getElem (by simp [hlength])
    intro index hleft hright
    have hindex : index < points.length := by simpa using hleft
    rw [List.getElem_map, ← eval_ofCoeffs, ofCoeffs_map_coeff hdegree]
    have hvalue := Lagrange.eval_interpolate_at_node
      (fun index : Fin points.length => values.getD index 0) hinj
      (Finset.mem_univ ⟨index, hindex⟩)
    exact hvalue.trans (List.getD_eq_getElem _ _ hright)
  · rintro coeffs ⟨hcount, hvalues⟩
    apply ofCoeffs_inj (by simpa using hcount)
    rw [ofCoeffs_map_coeff hdegree]
    have hlow := degree_ofCoeffs_lt coeffs
    rw [hcount] at hlow
    apply eq_of_degrees_lt_of_eval_index_eq _ hinj
      (by rwa [hcard]) (by rwa [hcard])
    intro index _
    rw [Lagrange.eval_interpolate_at_node _ hinj (Finset.mem_univ index),
      eval_ofCoeffs, ← hvalues, List.getD_eq_getElem _ _ (by simp)]
    simp

/-- Through points at distinct places goes exactly one polynomial of a degree
below their number. -/
theorem existsUnique_through {points : List (F × F)}
    (hnodup : (points.map Prod.fst).Nodup) :
    ∃! f : F[X], f.degree < (points.length : WithBot Nat) ∧
      ∀ point ∈ points, f.eval point.1 = point.2 := by
  have hlength : (points.map Prod.snd).length =
      (points.map Prod.fst).length := by simp
  obtain ⟨coeffs, ⟨hcount, hvalues⟩, hunique⟩ :=
    existsUnique_horner hnodup hlength
  rw [List.length_map] at hcount hunique
  refine ⟨ofCoeffs coeffs, ⟨hcount ▸ degree_ofCoeffs_lt coeffs, ?_⟩, ?_⟩
  · rw [List.map_map, List.map_inj_left] at hvalues
    intro point hpoint
    rw [eval_ofCoeffs]
    exact hvalues point hpoint
  · rintro f ⟨hdegree, hthrough⟩
    rw [← ofCoeffs_map_coeff hdegree]
    congr 1
    refine hunique _ ⟨by simp, ?_⟩
    rw [List.map_map, List.map_inj_left]
    intro point hpoint
    rw [Function.comp_apply, ← eval_ofCoeffs, ofCoeffs_map_coeff hdegree]
    exact hthrough point hpoint

/-- The products over all other points that make up the weight of the point
at a position. -/
def originNumerator (points : List (F × F)) (position : Nat) : F :=
  (points.zipIdx.map fun entry =>
    if position = entry.2 then 1 else -entry.1.1).prod

def originDenominator (points : List (F × F)) (x : F) (position : Nat) : F :=
  (points.zipIdx.map fun entry =>
    if position = entry.2 then 1 else x - entry.1.1).prod

/-- Lagrange's formula at zero. -/
def valueAtOrigin (points : List (F × F)) : F :=
  (points.zipIdx.map fun entry =>
    entry.1.2 * (originNumerator points entry.2 *
      (originDenominator points entry.1.1 entry.2)⁻¹)).sum

theorem map_zipIdx_eq_ofFn {α β : Type*} (list : List α) (f : α × Nat → β) :
    list.zipIdx.map f =
      List.ofFn fun index : Fin list.length => f (list[index], index) := by
  apply List.ext_getElem
  · simp
  · intro index hleft hright
    simp

theorem prod_others {α : Type*} (list : List α) (f : α → F)
    (position : Fin list.length) :
    (list.zipIdx.map fun entry =>
        if position.val = entry.2 then 1 else f entry.1).prod =
      ∏ other ∈ Finset.univ.erase position, f list[other] := by
  rw [map_zipIdx_eq_ofFn, List.prod_ofFn, ← Finset.mul_prod_erase
    Finset.univ _ (Finset.mem_univ position), if_pos rfl, one_mul]
  apply Finset.prod_congr rfl
  intro other hother
  rw [if_neg]
  intro heq
  exact Finset.ne_of_mem_erase hother (Fin.ext heq.symm)

/-- As many points as coefficients determine the value at the origin. -/
theorem eval_zero_eq_valueAtOrigin {points : List (F × F)} {f : F[X]}
    (hnodup : (points.map Prod.fst).Nodup)
    (hdegree : f.degree < (points.length : WithBot Nat))
    (hvalues : ∀ point ∈ points, f.eval point.1 = point.2) :
    f.eval 0 = valueAtOrigin points := by
  have hinj : Set.InjOn (fun index : Fin points.length => points[index].1)
      (Finset.univ : Finset (Fin points.length)) := by
    intro left _ right _ heq
    have hget := List.nodup_iff_injective_get.mp hnodup
    have hsame := @hget ⟨left.val, by simp⟩ ⟨right.val, by simp⟩
      (by simpa using heq)
    exact Fin.ext (Fin.mk.inj hsame)
  have hinterpolated := Lagrange.eq_interpolate_of_eval_eq
    (r := fun index : Fin points.length => points[index].2) hinj
    (by simpa using hdegree)
    (fun index _ => hvalues _ (List.getElem_mem _))
  rw [hinterpolated, Lagrange.interpolate_apply, eval_finsetSum,
    valueAtOrigin, map_zipIdx_eq_ofFn, List.sum_ofFn]
  apply Finset.sum_congr rfl
  intro index _
  rw [eval_mul, eval_C, Lagrange.basis, eval_prod]
  dsimp only
  rw [originNumerator, originDenominator,
    prod_others points (fun point => -point.1) index,
    prod_others points (fun point => points[index].1 - point.1) index,
    ← Finset.prod_inv_distrib, ← Finset.prod_mul_distrib]
  congr 1
  apply Finset.prod_congr rfl
  intro other _
  rw [Lagrange.basisDivisor, eval_mul, eval_C, eval_sub, eval_X, eval_C,
    zero_sub, mul_comm]

end Interpolation
