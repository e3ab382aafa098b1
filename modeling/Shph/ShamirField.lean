/-
The word arithmetic of the sharing code is field arithmetic: Horner's rule,
the inverse by the extended Euclidean algorithm and Lagrange's formula at the
origin, each modulo a prime.
-/
import Shph.Library.Interpolation
import Shph.Shamir

namespace Shph

open Interpolation

theorem gfEval_nil (x p : Nat) : gfEval [] x p = 0 := rfl

theorem gfEval_cons (coeff : Nat) (coeffs : List Nat) (x p : Nat) :
    gfEval (coeff :: coeffs) x p = (gfEval coeffs x p * x + coeff) % p := by
  simp [gfEval]

theorem gfEval_lt {p : Nat} (hp : 0 < p) (coeffs : List Nat) (x : Nat) :
    gfEval coeffs x p < p := by
  cases coeffs with
  | nil => exact hp
  | cons coeff coeffs =>
      rw [gfEval_cons]
      exact Nat.mod_lt _ hp

/-- The state of the inversion: both remainders are combinations of the prime
and the number, and the cofactors alternate in sign and stay small. -/
structure EuclidState (x p t newT r newR : Int) : Prop where
  r_pos : 0 < r
  newR_nonneg : 0 ≤ newR
  left : p ∣ r - t * x
  right : p ∣ newR - newT * x
  coprime : Int.gcd r newR = 1
  signs : (0 ≤ newT ∧ t ≤ 0 ∧ newT * r - t * newR = p) ∨
    (newT ≤ 0 ∧ 0 ≤ t ∧ t * newR - newT * r = p)
  small : -p ≤ t ∧ t ≤ p

theorem EuclidState.newT_small {x p t newT r newR : Int}
    (hstate : EuclidState x p t newT r newR) : -p ≤ newT ∧ newT ≤ p := by
  have hr := hstate.r_pos
  have hnewR := hstate.newR_nonneg
  rcases hstate.signs with ⟨hnew, hold, hsum⟩ | ⟨hnew, hold, hsum⟩
  · have hother := mul_nonpos_of_nonpos_of_nonneg hold hnewR
    have hscaled : newT ≤ newT * r := le_mul_of_one_le_right hnew hr
    constructor
    · linarith
    · linarith
  · have hother := mul_nonneg hold hnewR
    have hscaled : newT * r ≤ newT := by
      have hflip := le_mul_of_one_le_right (neg_nonneg.mpr hnew) hr
      linarith
    constructor
    · linarith
    · linarith

theorem EuclidState.step {x p t newT r newR : Int}
    (hstate : EuclidState x p t newT r newR) (hne : newR ≠ 0) :
    EuclidState x p newT (t - r.tdiv newR * newT) newR
      (r - r.tdiv newR * newR) := by
  have hpos : 0 < newR := lt_of_le_of_ne hstate.newR_nonneg (Ne.symm hne)
  have hr := hstate.r_pos
  have hquotient : 0 ≤ r.tdiv newR :=
    Int.tdiv_nonneg hstate.r_pos.le hstate.newR_nonneg
  have hremainder : r - r.tdiv newR * newR = r.tmod newR := by
    rw [Int.mul_comm, ← Int.tmod_def]
  generalize r.tdiv newR = quotient at hquotient hremainder
  refine ⟨hpos, ?_, hstate.right, ?_, ?_, ?_, ?_⟩
  · rw [hremainder]
    exact Int.tmod_nonneg newR hstate.r_pos.le
  · have hcombination : r - quotient * newR - (t - quotient * newT) * x =
        r - t * x - quotient * (newR - newT * x) := by ring
    rw [hcombination]
    exact dvd_sub hstate.left (Dvd.dvd.mul_left hstate.right quotient)
  · rw [Int.gcd_sub_mul_right_right, Int.gcd_comm]
    exact hstate.coprime
  · rcases hstate.signs with ⟨hnew, hold, hsum⟩ | ⟨hnew, hold, hsum⟩
    · refine Or.inr ⟨?_, hnew, ?_⟩
      · have hproduct := mul_nonneg hquotient hnew
        linarith
      · rw [← hsum]
        ring
    · refine Or.inl ⟨?_, hnew, ?_⟩
      · have hproduct := mul_nonpos_of_nonneg_of_nonpos hquotient hnew
        linarith
      · rw [← hsum]
        ring
  · exact hstate.newT_small

/-- The loop ends with remainder one and the cofactor of the number. -/
theorem gfInvLoop_spec {x p t newT r newR : Int}
    (hstate : EuclidState x p t newT r newR) :
    (gfInvLoop t newT r newR).2 = 1 ∧
      p ∣ 1 - (gfInvLoop t newT r newR).1 * x ∧
      -p ≤ (gfInvLoop t newT r newR).1 ∧ (gfInvLoop t newT r newR).1 ≤ p := by
  induction t, newT, r, newR using gfInvLoop.induct with
  | case1 t newT r =>
      have hone : r = 1 := by
        have hcoprime := hstate.coprime
        have hpos := hstate.r_pos
        rw [Int.gcd_zero_right] at hcoprime
        omega
      rw [gfInvLoop, if_pos rfl]
      exact ⟨hone, hone ▸ hstate.left, hstate.small⟩
  | case2 t newT r newR hne quotient ih =>
      rw [gfInvLoop, if_neg hne]
      exact ih (hstate.step hne)

section

variable {p : Nat} [hprime : Fact p.Prime]

/-- The inversion starts at a number that the prime does not divide. -/
theorem euclidState_start {x : Nat} (hpos : 0 < x) (hx : x < p) :
    EuclidState x p 0 1 p x :=
  { r_pos := by omega
    newR_nonneg := by omega
    left := by simp
    right := by simp
    coprime := by
      rw [Int.gcd_natCast_natCast]
      exact Nat.coprime_of_lt_prime hpos.ne' hx hprime.out
    signs := Or.inl ⟨by omega, by omega, by ring⟩
    small := by omega }

/-- The inverse code computes the inverse, and zero for zero. -/
theorem gfInv_cast (hword : p < 2 ^ 64) {x : Nat} (hx : x < p) :
    ((gfInv x p : Nat) : ZMod p) = (x : ZMod p)⁻¹ := by
  have hp := hprime.out.one_lt
  rcases Nat.eq_zero_or_pos x with rfl | hpos
  · have hloop : gfInvLoop 0 1 p 0 = (0, (p : Int)) := by
      rw [gfInvLoop, if_pos rfl]
    have hne : (p : Int) ≠ 1 := by omega
    have hzero : gfInv 0 p = 0 := by
      simp only [gfInv, Nat.cast_zero, hloop, if_pos hne]
    rw [hzero, Nat.cast_zero, inv_zero]
  · obtain ⟨hone, hdvd, hlow, hhigh⟩ :=
      gfInvLoop_spec (euclidState_start hpos hx)
    generalize hloop : gfInvLoop 0 1 p x = result at hone hdvd hlow hhigh
    obtain ⟨t, r⟩ := result
    dsimp only at hone hdvd hlow hhigh
    have hinverse : ((t : Int) : ZMod p) * (x : ZMod p) = 1 := by
      have hzero := (ZMod.intCast_zmod_eq_zero_iff_dvd (1 - t * x) p).mpr hdvd
      push_cast at hzero
      exact (sub_eq_zero.mp hzero).symm
    have hvalue : ((gfInv x p : Nat) : ZMod p) = ((t : Int) : ZMod p) := by
      simp only [gfInv, hloop, hone, ne_eq, not_true_eq_false, if_false]
      split
      · have hsum : (t + p) % 2 ^ 64 = t + p := by
          apply Int.emod_eq_of_lt
          · omega
          · omega
        rw [hsum, ← Int.cast_natCast, Int.toNat_of_nonneg (by omega)]
        push_cast
        rw [ZMod.natCast_self, add_zero]
      · rw [← Int.cast_natCast, Int.toNat_of_nonneg (by omega)]
    rw [hvalue]
    exact eq_inv_of_mul_eq_one_left hinverse

theorem gfInv_le (hword : p < 2 ^ 64) {x : Nat} (hpos : 0 < x)
    (hx : x < p) : gfInv x p ≤ p := by
  obtain ⟨hone, -, hlow, hhigh⟩ := gfInvLoop_spec (euclidState_start hpos hx)
  simp only [gfInv, hone, ne_eq, not_true_eq_false, if_false]
  split
  · have hsum : ((gfInvLoop 0 1 p x).1 + p) % 2 ^ 64 =
        (gfInvLoop 0 1 p x).1 + p := by
      apply Int.emod_eq_of_lt
      · omega
      · omega
    omega
  · omega

theorem mul_gfInv (hword : p < 2 ^ 64) {x : Nat} (hpos : 0 < x)
    (hx : x < p) : x * gfInv x p % p = 1 := by
  have hne : (x : ZMod p) ≠ 0 := by
    rw [Ne, ZMod.natCast_eq_zero_iff]
    exact Nat.not_dvd_of_pos_of_lt hpos hx
  have hcast : ((x * gfInv x p : Nat) : ZMod p) = ((1 : Nat) : ZMod p) := by
    rw [Nat.cast_mul, gfInv_cast hword hx, mul_inv_cancel₀ hne, Nat.cast_one]
  have hmod := (ZMod.natCast_eq_natCast_iff' _ _ _).mp hcast
  rwa [Nat.mod_eq_of_lt hprime.out.one_lt] at hmod

end

theorem gfEval_cast {p : Nat} [Fact p.Prime] (coeffs : List Nat) (x : Nat) :
    ((gfEval coeffs x p : Nat) : ZMod p) =
      horner (coeffs.map fun coeff : Nat => (coeff : ZMod p)) x := by
  induction coeffs with
  | nil => simp [gfEval_nil, horner]
  | cons coeff coeffs ih =>
      rw [gfEval_cons, ZMod.natCast_mod, Nat.cast_add, Nat.cast_mul, ih]
      rfl

/-- A point of the code as a point of the field. -/
def fieldPoint (p : Nat) (point : Nat × Nat) : ZMod p × ZMod p :=
  (point.1, point.2)

/-- Distinct numbers below the prime are distinct elements of the field. -/
theorem fieldPoint_nodup {p : Nat} {points : List (Nat × Nat)}
    (hlt : ∀ point ∈ points, point.1 < p)
    (hnodup : (points.map Prod.fst).Nodup) :
    ((points.map (fieldPoint p)).map Prod.fst).Nodup := by
  rw [List.map_map]
  have hpoints : points.Nodup := List.Nodup.of_map _ hnodup
  refine hpoints.map_on ?_
  intro left hleft right hright hsame
  have hmod := (ZMod.natCast_eq_natCast_iff' _ _ _).mp hsame
  rw [Nat.mod_eq_of_lt (hlt left hleft),
    Nat.mod_eq_of_lt (hlt right hright)] at hmod
  exact List.inj_on_of_nodup_map hnodup hleft hright hmod

section

variable {p : Nat} [hprime : Fact p.Prime]

/-- One turn of the inner loop multiplies by the two factors of a point. -/
theorem lagrangeStep_cast (hword : p < 2 ^ 64) (xi i : Nat)
    (products : Nat × Nat) {entry : (Nat × Nat) × Nat}
    (hentry : entry.1.1 < p) :
    ((lagrangeStep p xi i products entry).1 : ZMod p) =
        products.1 * (if i = entry.2 then 1 else -(entry.1.1 : ZMod p)) ∧
      ((lagrangeStep p xi i products entry).2 : ZMod p) =
        products.2 *
          (if i = entry.2 then 1 else (xi : ZMod p) - entry.1.1) := by
  unfold lagrangeStep
  split
  · exact ⟨(mul_one _).symm, (mul_one _).symm⟩
  · constructor
    · dsimp only
      rw [Nat.mod_eq_of_lt hentry, wrappingSub_of_le hentry.le hword,
        ZMod.natCast_mod, ZMod.natCast_mod, Nat.cast_mul, Nat.cast_add,
        Nat.cast_sub hentry.le, ZMod.natCast_self, zero_add, zero_sub]
    · dsimp only
      rw [ZMod.natCast_mod, Nat.cast_mul, ZMod.natCast_mod,
        Nat.cast_sub (by omega), Nat.cast_add, ZMod.natCast_self, zero_add]

theorem lagrangeStep_lt (xi i : Nat) {products : Nat × Nat}
    (hproducts : products.2 < p) (entry : (Nat × Nat) × Nat) :
    (lagrangeStep p xi i products entry).2 < p := by
  unfold lagrangeStep
  split
  · exact hproducts
  · exact Nat.mod_lt _ hprime.out.pos

theorem foldl_lagrangeStep_cast (hword : p < 2 ^ 64) (xi i : Nat)
    (entries : List ((Nat × Nat) × Nat))
    (hentries : ∀ entry ∈ entries, entry.1.1 < p) (products : Nat × Nat)
    (hproducts : products.2 < p) :
    ((entries.foldl (lagrangeStep p xi i) products).1 : ZMod p) =
        products.1 * (entries.map fun entry =>
          if i = entry.2 then 1 else -(entry.1.1 : ZMod p)).prod ∧
      ((entries.foldl (lagrangeStep p xi i) products).2 : ZMod p) =
        products.2 * (entries.map fun entry =>
          if i = entry.2 then 1 else (xi : ZMod p) - entry.1.1).prod ∧
      (entries.foldl (lagrangeStep p xi i) products).2 < p := by
  induction entries generalizing products with
  | nil => simpa using hproducts
  | cons entry entries ih =>
      obtain ⟨hentry, hrest⟩ := List.forall_mem_cons.mp hentries
      obtain ⟨hnum, hden⟩ := lagrangeStep_cast hword xi i products hentry
      obtain ⟨hnums, hdens, hlt⟩ := ih hrest
        (lagrangeStep p xi i products entry)
        (lagrangeStep_lt xi i hproducts entry)
      rw [List.foldl_cons, List.map_cons, List.map_cons, List.prod_cons,
        List.prod_cons, ← mul_assoc, ← mul_assoc, ← hnum, ← hden]
      exact ⟨hnums, hdens, hlt⟩

theorem lagrangeWeight_cast (hword : p < 2 ^ 64) {points : List (Nat × Nat)}
    (hpoints : ∀ point ∈ points, point.1 < p) (xi i : Nat) :
    ((lagrangeWeight points p xi i : Nat) : ZMod p) =
      originNumerator (points.map (fieldPoint p)) i *
        (originDenominator (points.map (fieldPoint p)) xi i)⁻¹ := by
  have hentries : ∀ entry ∈ points.zipIdx, entry.1.1 < p := by
    intro entry hentry
    exact hpoints entry.1 (List.fst_mem_of_mem_zipIdx hentry)
  obtain ⟨hnum, hden, hlt⟩ := foldl_lagrangeStep_cast hword xi i points.zipIdx
    hentries (1, 1) hprime.out.one_lt
  rw [Nat.cast_one, one_mul] at hnum hden
  unfold lagrangeWeight
  dsimp only
  rw [ZMod.natCast_mod, Nat.cast_mul, gfInv_cast hword hlt, hnum, hden,
    originNumerator, originDenominator, List.zipIdx_map, List.map_map,
    List.map_map]
  rfl

/-- The code computes Lagrange's formula at the origin. -/
theorem gfLagrangeOrigin_cast (hword : p < 2 ^ 64)
    {points : List (Nat × Nat)} (hpoints : ∀ point ∈ points, point.1 < p) :
    ((gfLagrangeOrigin points p : Nat) : ZMod p) =
      valueAtOrigin (points.map (fieldPoint p)) := by
  have hrun : ∀ (entries : List ((Nat × Nat) × Nat)) (out : Nat),
      ((entries.foldl (fun out entry =>
        (out + entry.1.2 * lagrangeWeight points p entry.1.1 entry.2) % p)
          out : Nat) : ZMod p) =
        out + (entries.map fun entry => (entry.1.2 : ZMod p) *
          (lagrangeWeight points p entry.1.1 entry.2 : Nat)).sum := by
    intro entries
    induction entries with
    | nil => simp
    | cons entry entries ih =>
        intro out
        rw [List.foldl_cons, ih, List.map_cons, List.sum_cons, ← add_assoc,
          ZMod.natCast_mod, Nat.cast_add, Nat.cast_mul]
  rw [gfLagrangeOrigin, ZMod.natCast_mod, hrun, Nat.cast_zero, zero_add,
    valueAtOrigin, List.zipIdx_map, List.map_map]
  congr 1
  apply List.map_congr_left
  intro entry _
  rw [lagrangeWeight_cast hword hpoints]
  rfl

/-- Interpolating the values of a polynomial at enough distinct points gives
its constant term. -/
theorem gfLagrangeOrigin_gfEval (hword : p < 2 ^ 64) (coeffs xs : List Nat)
    (hlt : ∀ x ∈ xs, x < p) (hnodup : xs.Nodup)
    (hlength : xs.length = coeffs.length) :
    gfLagrangeOrigin (xs.map fun x => (x, gfEval coeffs x p)) p =
      coeffs.headD 0 % p := by
  have hpoints : ∀ point ∈ xs.map fun x => (x, gfEval coeffs x p),
      point.1 < p := by
    intro point hpoint
    obtain ⟨x, hx, rfl⟩ := List.mem_map.mp hpoint
    exact hlt x hx
  let f := ofCoeffs (coeffs.map fun coeff : Nat => (coeff : ZMod p))
  let points := (xs.map fun x => (x, gfEval coeffs x p)).map (fieldPoint p)
  have hdistinct : (points.map Prod.fst).Nodup := by
    apply fieldPoint_nodup hpoints
    rw [List.map_map]
    exact hnodup.map Function.injective_id
  have hdegree : f.degree < (points.length : WithBot Nat) := by
    have hcoeffs := degree_ofCoeffs_lt
      (coeffs.map fun coeff : Nat => (coeff : ZMod p))
    rw [List.length_map, ← hlength] at hcoeffs
    simpa only [points, List.length_map] using hcoeffs
  have hvalues : ∀ point ∈ points, f.eval point.1 = point.2 := by
    simp only [points, List.map_map, List.mem_map, Function.comp_apply,
      forall_exists_index, and_imp]
    rintro point x _ rfl
    exact (eval_ofCoeffs _ _).trans (gfEval_cast coeffs x).symm
  have horigin : f.eval 0 = ((coeffs.headD 0 : Nat) : ZMod p) := by
    rw [eval_ofCoeffs]
    cases coeffs with
    | nil => simp [horner]
    | cons coeff coeffs => simp [horner]
  have hcast := gfLagrangeOrigin_cast hword hpoints
  rw [← eval_zero_eq_valueAtOrigin hdistinct hdegree hvalues, horigin,
    ZMod.natCast_eq_natCast_iff'] at hcast
  rw [← hcast, gfLagrangeOrigin, Nat.mod_mod]

end

end Shph
