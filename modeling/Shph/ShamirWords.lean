/-
The sharing code on machine words.  Every addition, subtraction, product and
quotient of the interpolation fits its word, so that it computes what the
arithmetic without bounds computes: the value at the origin of the polynomial
through the points.
-/
import Shph.Library.WordFault
import Shph.ShamirSoundness

namespace Shph.ShamirWords

open Interpolation Polynomial WordFault

/-- The variables of the loop of `gf_inv`. -/
structure InvState where
  t : Int
  newT : Int
  r : Int
  newR : Int
deriving Repr, DecidableEq

def gfInvTurn (state : InvState) : Except Fault InvState := do
  let quotient ← divInt 64 state.r state.newR
  let product ← mulInt 64 quotient state.newT
  let tempT ← subInt 64 state.t product
  let multiple ← mulInt 64 quotient state.newR
  let tempR ← subInt 64 state.r multiple
  return ⟨state.newT, tempT, state.newR, tempR⟩

def gfInvLoop (fuel x p : Nat) : Except Fault InvState :=
  whileLoop (fun state => state.newR != 0) gfInvTurn fuel
    ⟨0, 1, toSigned 64 p, toSigned 64 x⟩

def gfInv (fuel x p : Nat) : Except Fault Nat := do
  let last ← gfInvLoop fuel x p
  if last.r ≠ 1 then return 0
  else if last.t < 0 then
    let lifted ← addInt 64 last.t (toSigned 64 p)
    return toUnsigned 64 lifted
  else return toUnsigned 64 last.t

/-- One turn of the inner loop, which passes over the point itself. -/
def lagrangeStep (prime xi i : Nat) (products : Nat × Nat)
    (entry : (Nat × Nat) × Nat) : Except Fault (Nat × Nat) :=
  if i = entry.2 then return products
  else do
    let residue ← remWord entry.1.1 prime
    let lifted ← addWord 64 prime (wrappingSub prime residue)
    let product ← mulWord 64 products.1 lifted
    let num ← remWord product prime
    let num ← remWord num prime
    let raised ← addWord 64 prime xi
    let difference ← subWord raised entry.1.1
    let factor ← remWord difference prime
    let product ← mulWord 64 products.2 factor
    let den ← remWord product prime
    return (num, den)

def lagrangeProducts (points : List (Nat × Nat)) (prime xi i : Nat) :
    Except Fault (Nat × Nat) :=
  points.zipIdx.foldlM (lagrangeStep prime xi i) (1, 1)

def lagrangeWeight (fuel : Nat) (points : List (Nat × Nat))
    (prime xi i : Nat) : Except Fault Nat := do
  let (num, den) ← lagrangeProducts points prime xi i
  let inverse ← gfInv fuel den prime
  let product ← mulWord 64 num inverse
  remWord product prime

def gfLagrangeOrigin (fuel : Nat) (points : List (Nat × Nat))
    (prime : Nat) : Except Fault Nat := do
  let out ← points.zipIdx.foldlM
    (fun out entry => do
      let lag ← lagrangeWeight fuel points prime entry.1.1 entry.2
      let product ← mulWord 64 entry.1.2 lag
      let sum ← addWord 64 out product
      remWord sum prime)
    0
  remWord out prime

theorem toSigned_of_lt {value : Nat} (hvalue : value < 2 ^ 63) :
    toSigned 64 value = value := by
  unfold toSigned
  apply Int.bmod_eq_of_le
  · omega
  · omega

theorem fitsSigned_of_small {p : Nat} (hword : p < 2 ^ 31) {value : Int}
    (hlow : -(2 * p) ≤ value) (hhigh : value ≤ 2 * p) :
    FitsSigned 64 value := by
  have hbound : (2 : Int) ^ (64 - 1) = 9223372036854775808 := by norm_num
  constructor
  · rw [hbound]
    omega
  · rw [hbound]
    omega

section Euclid

variable {x p : Nat}

/-- What the loop of `gf_inv` preserves: the state of the algorithm, with
remainders up to the prime, and what the loop is going to compute. -/
structure Inverting (x p : Nat) (state : InvState) : Prop where
  euclid : EuclidState x p state.t state.newT state.r state.newR
  r_le : state.r ≤ p
  newR_le : state.newR ≤ p
  loop : Shph.gfInvLoop state.t state.newT state.r state.newR =
    Shph.gfInvLoop 0 1 p x

def InvState.next (state : InvState) : InvState :=
  ⟨state.newT, state.t - state.r.tdiv state.newR * state.newT, state.newR,
    state.r - state.r.tdiv state.newR * state.newR⟩

/-- A turn goes through and comes nearer to the end. -/
theorem Inverting.turn (hword : p < 2 ^ 31) {state : InvState}
    (hstate : Inverting x p state) (hne : state.newR ≠ 0) :
    gfInvTurn state = .ok state.next ∧ Inverting x p state.next ∧
      state.next.newR.toNat < state.newR.toNat := by
  have hstep := hstate.euclid.step hne
  have hr := hstate.euclid.r_pos
  have hnewR := hstate.euclid.newR_nonneg
  have hrle := hstate.r_le
  have hnewRle := hstate.newR_le
  have ht := hstate.euclid.small
  have hnewT := hstep.newT_small
  have hloop := hstate.loop
  have hremainder : state.r - state.r.tdiv state.newR * state.newR =
      state.r.tmod state.newR := by
    rw [Int.mul_comm, ← Int.tmod_def]
  have hlow := Int.tmod_nonneg state.newR hr.le
  have hhigh := Int.tmod_lt_of_pos state.r (show 0 < state.newR by omega)
  have hquotient : 0 ≤ state.r.tdiv state.newR := Int.tdiv_nonneg hr.le hnewR
  have hquotientle : state.r.tdiv state.newR ≤ state.r :=
    Int.tdiv_le_self _ hr.le
  rw [Shph.gfInvLoop, if_neg hne] at hloop
  refine ⟨?_, ⟨hstep, hnewRle, ?_, hloop⟩, ?_⟩
  · refine bind_of_ok (divInt_eq hne (fitsSigned_of_small hword ?_ ?_)) ?_
    · omega
    · omega
    refine bind_of_ok (mulInt_eq (fitsSigned_of_small hword ?_ ?_)) ?_
    · omega
    · omega
    refine bind_of_ok (subInt_eq (fitsSigned_of_small hword ?_ ?_)) ?_
    · omega
    · omega
    refine bind_of_ok (mulInt_eq (fitsSigned_of_small hword ?_ ?_)) ?_
    · omega
    · omega
    refine bind_of_ok (subInt_eq (fitsSigned_of_small hword ?_ ?_)) rfl
    · omega
    · omega
  · show state.r - state.r.tdiv state.newR * state.newR ≤ p
    omega
  · show (state.r - state.r.tdiv state.newR * state.newR).toNat <
      state.newR.toNat
    omega

/-- The algorithm starts at a number that the prime does not divide. -/
theorem inverting_start [hprime : Fact p.Prime] (hpos : 0 < x)
    (hlt : x < p) : Inverting x p ⟨0, 1, p, x⟩ :=
  { euclid := euclidState_start hpos hlt
    r_le := le_rfl
    newR_le := by
      show (x : Int) ≤ p
      omega
    loop := rfl }

/-- The loop ends with remainder one. -/
theorem gfInvLoop_ends [hprime : Fact p.Prime] (hword : p < 2 ^ 31)
    (hpos : 0 < x) (hlt : x < p) {fuel : Nat} (hfuel : p ≤ fuel) :
    ∃ last, gfInvLoop fuel x p = .ok last ∧ last.r = 1 ∧
      (last.t, last.r) = Shph.gfInvLoop 0 1 p x ∧ -p ≤ last.t ∧
      last.t ≤ p := by
  let distance (state : InvState) := state.newR.toNat
  have hturn : ∀ state, Inverting x p state → (state.newR != 0) = true →
      ∃ next, gfInvTurn state = .ok next ∧ Inverting x p next ∧
        distance next < distance state := by
    intro state hstate hrunning
    exact ⟨state.next, hstate.turn hword (bne_iff_ne.mp hrunning)⟩
  have hdistance : distance ⟨0, 1, p, x⟩ ≤ fuel := by
    show (x : Int).toNat ≤ fuel
    omega
  obtain ⟨last, hlast, hinv, hstopped⟩ :=
    whileLoop_ends hturn (inverting_start hpos hlt) hdistance
  have hzero : last.newR = 0 := by simpa using hstopped
  have hloop := hinv.loop
  rw [hzero, Shph.gfInvLoop, if_pos rfl] at hloop
  have hone := (gfInvLoop_spec (euclidState_start hpos hlt)).1
  rw [← hloop] at hone
  refine ⟨last, ?_, hone, hloop, hinv.euclid.small⟩
  rw [gfInvLoop, toSigned_of_lt (by omega), toSigned_of_lt (by omega)]
  exact hlast

theorem gfInv_eq [hprime : Fact p.Prime] (hword : p < 2 ^ 31)
    (hpos : 0 < x) (hlt : x < p) {fuel : Nat} (hfuel : p ≤ fuel) :
    gfInv fuel x p = .ok (Shph.gfInv x p) := by
  obtain ⟨last, hlast, hone, hloop, hlow, hhigh⟩ :=
    gfInvLoop_ends hword hpos hlt hfuel
  unfold gfInv Shph.gfInv
  rw [← hloop]
  refine bind_of_ok hlast ?_
  simp only [hone, ne_eq, not_true_eq_false, if_false]
  split
  · have hprime : toSigned 64 p = p := toSigned_of_lt (by omega)
    have hsum := addInt_eq (fitsSigned_of_small hword
      (show -(2 * p) ≤ last.t + (p : Int) by omega) (by omega))
    rw [hprime]
    exact bind_of_ok hsum rfl
  · have hsmall : last.t % 2 ^ 64 = last.t :=
      Int.emod_eq_of_lt (by omega) (by omega)
    rw [toUnsigned, hsmall]
    rfl

end Euclid

/-- A product of two numbers below the prime, the second raised once more by
the prime. -/
theorem mul_lt_word {p : Nat} (hword : p < 2 ^ 31) {left right : Nat}
    (hleft : left < p) (hright : right ≤ 2 * p) : left * right < 2 ^ 64 := by
  have hproduct := Nat.mul_le_mul hleft.le hright
  have hsquare := Nat.mul_lt_mul'' hword hword
  have hdouble : p * (2 * p) = 2 * (p * p) := by ring
  omega

section Interpolation

variable {p : Nat} {points : List (Nat × Nat)}

theorem lagrangeStep_eq [hprime : Fact p.Prime] (hword : p < 2 ^ 31)
    {xi i : Nat} (hxi : xi < p) {products : Nat × Nat}
    (hproducts : products.1 < p ∧ products.2 < p)
    {entry : (Nat × Nat) × Nat} (hentry : entry.1.1 < p) :
    lagrangeStep p xi i products entry =
        .ok (Shph.lagrangeStep p xi i products entry) ∧
      (Shph.lagrangeStep p xi i products entry).1 < p ∧
      (Shph.lagrangeStep p xi i products entry).2 < p := by
  have hp := hprime.out.pos
  unfold lagrangeStep Shph.lagrangeStep
  split
  · exact ⟨rfl, hproducts⟩
  · refine ⟨?_, Nat.mod_lt _ hp, Nat.mod_lt _ hp⟩
    have hresidue : entry.1.1 % p = entry.1.1 := Nat.mod_eq_of_lt hentry
    have hwrapping : wrappingSub p (entry.1.1 % p) = p - entry.1.1 := by
      rw [hresidue]
      exact wrappingSub_of_le hentry.le (by omega)
    have hfactor := Nat.mod_lt (p + xi - entry.1.1) hp
    refine bind_of_ok (remWord_eq hp) ?_
    rw [hwrapping]
    refine bind_of_ok (addWord_eq (by omega)) ?_
    refine bind_of_ok (mulWord_eq ?_) ?_
    · exact mul_lt_word hword hproducts.1 (by omega)
    refine bind_of_ok (remWord_eq hp) ?_
    refine bind_of_ok (remWord_eq hp) ?_
    refine bind_of_ok (addWord_eq (by omega)) ?_
    refine bind_of_ok (subWord_eq (by omega)) ?_
    refine bind_of_ok (remWord_eq hp) ?_
    refine bind_of_ok (mulWord_eq ?_) ?_
    · exact mul_lt_word hword hproducts.2 (by omega)
    exact bind_of_ok (remWord_eq hp) rfl

/-- Points of the field at distinct places. -/
structure Distinct (p : Nat) (points : List (Nat × Nat)) : Prop where
  place_lt : ∀ point ∈ points, point.1 < p
  value_lt : ∀ point ∈ points, point.2 < p
  nodup : (points.map Prod.fst).Nodup

theorem Distinct.entry_lt (hpoints : Distinct p points) :
    ∀ entry ∈ points.zipIdx, entry.1.1 < p := by
  intro entry hentry
  exact hpoints.place_lt entry.1 (List.fst_mem_of_mem_zipIdx hentry)

/-- Both products of a point go through. -/
theorem lagrangeProducts_eq [hprime : Fact p.Prime] (hword : p < 2 ^ 31)
    (hpoints : Distinct p points) {xi : Nat} (hxi : xi < p) (i : Nat) :
    lagrangeProducts points p xi i =
        .ok (points.zipIdx.foldl (Shph.lagrangeStep p xi i) (1, 1)) ∧
      (points.zipIdx.foldl (Shph.lagrangeStep p xi i) (1, 1)).1 < p ∧
      (points.zipIdx.foldl (Shph.lagrangeStep p xi i) (1, 1)).2 < p := by
  have hone := hprime.out.one_lt
  let inv (products : Nat × Nat) := products.1 < p ∧ products.2 < p
  have hstep : ∀ products, inv products → ∀ entry ∈ points.zipIdx,
      lagrangeStep p xi i products entry =
          .ok (Shph.lagrangeStep p xi i products entry) ∧
        inv (Shph.lagrangeStep p xi i products entry) := by
    intro products hproducts entry hentry
    exact lagrangeStep_eq hword hxi hproducts (hpoints.entry_lt entry hentry)
  exact foldlM_eq_ok hstep ⟨hone, hone⟩

/-- The place of a point is no other point's, so that its denominator has an
inverse. -/
theorem denominator_pos [hprime : Fact p.Prime] (hword : p < 2 ^ 31)
    (hpoints : Distinct p points)
    {entry : (Nat × Nat) × Nat} (hentry : entry ∈ points.zipIdx) :
    0 < (points.zipIdx.foldl (Shph.lagrangeStep p entry.1.1 entry.2)
      (1, 1)).2 := by
  obtain ⟨-, hden, -⟩ := foldl_lagrangeStep_cast (by omega) entry.1.1 entry.2
    points.zipIdx hpoints.entry_lt (1, 1) hprime.out.one_lt
  rw [Nat.pos_iff_ne_zero]
  intro hzero
  rw [hzero, Nat.cast_zero, Nat.cast_one, one_mul, eq_comm,
    List.prod_eq_zero_iff, List.mem_map] at hden
  obtain ⟨other, hother, hfactor⟩ := hden
  split at hfactor
  · exact one_ne_zero hfactor
  · rename_i hindex
    have hsame := (ZMod.natCast_eq_natCast_iff' _ _ _).mp
      (sub_eq_zero.mp hfactor)
    rw [Nat.mod_eq_of_lt (hpoints.entry_lt entry hentry),
      Nat.mod_eq_of_lt (hpoints.entry_lt other hother)] at hsame
    rw [List.mem_zipIdx_iff_getElem?] at hentry hother
    have hplaces : (points.map Prod.fst)[entry.2]? =
        (points.map Prod.fst)[other.2]? := by
      rw [List.getElem?_map, List.getElem?_map, hentry, hother,
        Option.map_some, Option.map_some, hsame]
    have hlt : entry.2 < (points.map Prod.fst).length := by
      rw [List.length_map]
      exact (List.getElem?_eq_some_iff.mp hentry).1
    exact hindex ((List.getElem?_inj hlt hpoints.nodup).mp hplaces)

theorem lagrangeWeight_eq [hprime : Fact p.Prime] (hword : p < 2 ^ 31)
    (hpoints : Distinct p points) {fuel : Nat} (hfuel : p ≤ fuel)
    {entry : (Nat × Nat) × Nat} (hentry : entry ∈ points.zipIdx) :
    lagrangeWeight fuel points p entry.1.1 entry.2 =
      .ok (Shph.lagrangeWeight points p entry.1.1 entry.2) := by
  have hp := hprime.out.pos
  obtain ⟨hproducts, hnum, hden⟩ := lagrangeProducts_eq hword hpoints
    (hpoints.entry_lt entry hentry) entry.2
  have hpos := denominator_pos hword hpoints hentry
  refine bind_of_ok hproducts ?_
  refine bind_of_ok (gfInv_eq hword hpos hden hfuel) ?_
  refine bind_of_ok (mulWord_eq ?_) ?_
  · have hinverse := gfInv_le (by omega) hpos hden
    exact mul_lt_word hword hnum (by omega)
  exact remWord_eq hp

/-- The whole interpolation goes through. -/
theorem gfLagrangeOrigin_eq [hprime : Fact p.Prime] (hword : p < 2 ^ 31)
    (hpoints : Distinct p points) {fuel : Nat} (hfuel : p ≤ fuel) :
    gfLagrangeOrigin fuel points p =
      .ok (Shph.gfLagrangeOrigin points p) := by
  have hp := hprime.out.pos
  let next (out : Nat) (entry : (Nat × Nat) × Nat) :=
    (out + entry.1.2 * Shph.lagrangeWeight points p entry.1.1 entry.2) % p
  have hstep : ∀ out, out < p → ∀ entry ∈ points.zipIdx,
      (do
        let lag ← lagrangeWeight fuel points p entry.1.1 entry.2
        let product ← mulWord 64 entry.1.2 lag
        let sum ← addWord 64 out product
        remWord sum p) = .ok (next out entry) ∧ next out entry < p := by
    intro out hout entry hentry
    have hvalue := hpoints.value_lt entry.1 (List.fst_mem_of_mem_zipIdx hentry)
    have hweight : Shph.lagrangeWeight points p entry.1.1 entry.2 < p :=
      Nat.mod_lt _ hp
    have hproduct := Nat.mul_le_mul hvalue.le hweight.le
    have hsquare := Nat.mul_lt_mul'' hword hword
    refine ⟨?_, Nat.mod_lt _ hp⟩
    refine bind_of_ok (lagrangeWeight_eq hword hpoints hfuel hentry) ?_
    refine bind_of_ok (mulWord_eq ?_) ?_
    · omega
    refine bind_of_ok (addWord_eq ?_) (remWord_eq hp)
    · omega
  obtain ⟨hout, -⟩ := foldlM_eq_ok hstep hp
  exact bind_of_ok hout (remWord_eq hp)

end Interpolation

/-- For points of the sharing code the interpolation ends without a fault, at
the value that the one polynomial through the points has at the origin.  Every
denominator gets its inverse, the loop that computes it ends with remainder
one, and the difference that may wrap does not. -/
theorem gfLagrangeOrigin_interpolates {points : List (Nat × Nat)}
    (hplaces : ∀ point ∈ points, 1 ≤ point.1 ∧ point.1 ≤ 255)
    (hvalues : ∀ point ∈ points, point.2 ≤ 256)
    (hnodup : (points.map Prod.fst).Nodup) {fuel : Nat}
    (hfuel : shamirPrime ≤ fuel) :
    ∃ f, Through points.length points f ∧
      (∀ g, Through points.length points g → g = f) ∧
      gfLagrangeOrigin fuel points shamirPrime = .ok (f.eval 0).val ∧
      (∀ entry ∈ points.zipIdx, ∃ num den last inverse,
        lagrangeProducts points shamirPrime entry.1.1 entry.2 =
            .ok (num, den) ∧
          gfInvLoop fuel den shamirPrime = .ok last ∧ last.r = 1 ∧
          gfInv fuel den shamirPrime = .ok inverse ∧
          den * inverse % shamirPrime = 1) ∧
      ∀ point ∈ points,
        wrappingSub shamirPrime (point.1 % shamirPrime) +
          point.1 % shamirPrime = shamirPrime := by
  have hword : shamirPrime < 2 ^ 31 := by decide
  have hpoints : Distinct shamirPrime points :=
    { place_lt := by
        intro point hpoint
        have hplace := (hplaces point hpoint).2
        unfold shamirPrime
        omega
      value_lt := by
        intro point hpoint
        have hvalue := hvalues point hpoint
        unfold shamirPrime
        omega
      nodup := hnodup }
  have hthrough : ∀ f, Through points.length points f ↔
      f.degree < ((points.map (fieldPoint shamirPrime)).length :
        WithBot Nat) ∧
      ∀ point ∈ points.map (fieldPoint shamirPrime),
        f.eval point.1 = point.2 := by
    intro f
    rw [Through, List.length_map, List.forall_mem_map]
    rfl
  have hdistinct := fieldPoint_nodup hpoints.place_lt hnodup
  obtain ⟨f, hf, hunique⟩ := existsUnique_through hdistinct
  refine ⟨f, (hthrough f).mpr hf,
    fun g hg => hunique g ((hthrough g).mp hg), ?_, ?_, ?_⟩
  · have hcast := gfLagrangeOrigin_cast (by decide) hpoints.place_lt
    rw [← eval_zero_eq_valueAtOrigin hdistinct hf.1 hf.2] at hcast
    rw [gfLagrangeOrigin_eq hword hpoints hfuel, ← hcast,
      ZMod.val_natCast_of_lt (gfLagrangeOrigin_lt points)]
  · intro entry hentry
    obtain ⟨hproducts, -, hden⟩ := lagrangeProducts_eq hword hpoints
      (hpoints.entry_lt entry hentry) entry.2
    have hpos := denominator_pos hword hpoints hentry
    obtain ⟨last, hlast, hone, -⟩ := gfInvLoop_ends hword hpos hden hfuel
    exact ⟨_, _, last, _, hproducts, hlast, hone,
      gfInv_eq hword hpos hden hfuel, mul_gfInv (by decide) hpos hden⟩
  · intro point hpoint
    have hlt := hpoints.place_lt point hpoint
    have hresidue : point.1 % shamirPrime = point.1 := Nat.mod_eq_of_lt hlt
    rw [hresidue, wrappingSub_of_le hlt.le (by decide),
      Nat.sub_add_cancel hlt.le]

example : gfLagrangeOrigin 257 [(1, 3), (2, 5)] 257 = .ok 1 := by
  decide +kernel

namespace ShamirWitness

theorem gfLagrangeOrigin_interpolates_line : ∃ f,
    Through 2 [(1, 3), (2, 5)] f ∧
      gfLagrangeOrigin 257 [(1, 3), (2, 5)] shamirPrime =
        .ok (f.eval 0).val := by
  obtain ⟨f, hf, -, hvalue, -⟩ := @gfLagrangeOrigin_interpolates
    [(1, 3), (2, 5)] (by decide) (by decide) (by decide) 257 le_rfl
  exact ⟨f, hf, hvalue⟩

end ShamirWitness

end Shph.ShamirWords
