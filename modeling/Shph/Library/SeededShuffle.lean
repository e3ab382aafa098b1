/-
Python's `random.shuffle`.  A generator gives words; numbers below a bound are
drawn from their leading bits by rejection, and every place from the last on is
exchanged with one that is not behind it.  Where no generator gives large words
for ever, every draw ends.
-/
import Shph.Library.MersenneTwister

namespace SeededShuffle

open MersenneTwister

universe u

variable {α : Type u}

def bitLength (number : Nat) : Nat :=
  if number = 0 then 0 else Nat.log2 number + 1

/-- Python's `getrandbits` for up to 32 bits, on the word it draws. -/
def getrandbits (bits : Nat) (word : Word) : Nat := (word >>> (32 - bits)).toNat

/-- Exchange two items. -/
def swap (values : List α) (left right : Nat) : List α :=
  match values[left]?, values[right]? with
  | some leftValue, some rightValue =>
      (values.set left rightValue).set right leftValue
  | _, _ => values

section Reference

variable (draw : Nat → Word)

/-- Whether the word at this distance gives a number below the bound. -/
def Accepts (bound position offset : Nat) : Prop :=
  getrandbits (bitLength bound) (draw (position + offset)) < bound

open Classical in
/-- A number below the bound, and the position behind the word that gave it. -/
noncomputable def randbelow (bound position : Nat) : Nat × Nat :=
  if haccepted : ∃ offset, Accepts draw bound position offset then
    (getrandbits (bitLength bound) (draw (position + Nat.find haccepted)),
      position + Nat.find haccepted + 1)
  else (0, position)

/-- Exchange the items from this place down to the second. -/
noncomputable def shuffleFrom : Nat → Nat → List α → List α
  | 0, _, values => values
  | index + 1, position, values =>
      let selected := randbelow draw (index + 2) position
      shuffleFrom index selected.2 (swap values (index + 1) selected.1)

noncomputable def shuffle (values : List α) : List α :=
  shuffleFrom draw (values.length - 1) 0 values

/-- The key of a generator that is seeded with a number: its digits to the base
`2 ^ 32` from the last on, and one digit for zero. -/
def seedKey (seed : Nat) : List Word :=
  if seed = 0 then [0#32]
  else (Nat.digits (2 ^ 32) seed).map (BitVec.ofNat 32)

/-- `random.Random(seed).shuffle`. -/
noncomputable def pythonShuffle (seed : Nat) (values : List α) : List α :=
  shuffle (output (initByArray (seedKey seed))) values

end Reference

theorem seedKey_of_lt {seed : Nat} (hseed : seed < 2 ^ 32) :
    seedKey seed = [BitVec.ofNat 32 seed] := by
  unfold seedKey
  split
  · rename_i hzero
    rw [hzero]
  · rename_i hne
    rw [Nat.digits_of_lt _ _ hne hseed]
    rfl

theorem seedKey_of_le {seed : Nat} (hlow : 2 ^ 32 ≤ seed)
    (hhigh : seed < 2 ^ 64) :
    seedKey seed =
      [BitVec.ofNat 32 seed, BitVec.ofNat 32 (seed / 2 ^ 32)] := by
  have hbase : 1 < 2 ^ 32 := by decide
  have hpositive : 0 < seed := Nat.lt_of_lt_of_le (by decide) hlow
  have hdivLow : seed / 2 ^ 32 ≠ 0 := by omega
  have hdivHigh : seed / 2 ^ 32 < 2 ^ 32 := by omega
  have hmod : BitVec.ofNat 32 (seed % 2 ^ 32) = BitVec.ofNat 32 seed := by
    apply BitVec.eq_of_toNat_eq
    rw [BitVec.toNat_ofNat, BitVec.toNat_ofNat, Nat.mod_mod]
  rw [seedKey, if_neg (Nat.ne_of_gt hpositive),
    Nat.digits_def' hbase hpositive, Nat.digits_of_lt _ _ hdivLow hdivHigh,
    List.map_cons, List.map_singleton, hmod]

theorem swap_perm (values : List α) (left right : Nat) :
    (swap values left right).Perm values := by
  unfold swap
  split
  · rename_i leftValue rightValue hleft hright
    obtain ⟨hleftLt, hleftGet⟩ := List.getElem?_eq_some_iff.mp hleft
    obtain ⟨hrightLt, hrightGet⟩ := List.getElem?_eq_some_iff.mp hright
    rw [← hleftGet, ← hrightGet]
    exact List.set_set_perm hleftLt hrightLt
  · exact List.Perm.refl values

theorem shuffleFrom_perm (draw : Nat → Word) (index position : Nat)
    (values : List α) : (shuffleFrom draw index position values).Perm values := by
  induction index generalizing position values with
  | zero => exact List.Perm.refl values
  | succ index ih => exact (ih _ _).trans (swap_perm values _ _)

/-- A word with a clear top bit gives a number below every bound. -/
theorem getrandbits_lt {bound : Nat} (hpositive : 0 < bound)
    (hbound : bound < 2 ^ 32) {word : Word} (hlow : word.msb = false) :
    getrandbits (bitLength bound) word < bound := by
  have hne : bound ≠ 0 := Nat.ne_of_gt hpositive
  have hlog : bound.log2 < 32 := (Nat.log2_lt hne).mpr hbound
  have hword : word.toNat < 2 ^ 31 := by
    have htop := BitVec.msb_eq_false_iff_two_mul_lt.mp hlow
    omega
  have hpower : 2 ^ (31 - bound.log2) * 2 ^ bound.log2 = 2 ^ 31 := by
    rw [← Nat.pow_add, Nat.sub_add_cancel (Nat.le_of_lt_succ hlog)]
  have hsmall : word.toNat / 2 ^ (31 - bound.log2) < 2 ^ bound.log2 := by
    rw [Nat.div_lt_iff_lt_mul (Nat.two_pow_pos _), Nat.mul_comm, hpower]
    exact hword
  rw [getrandbits, bitLength, if_neg hne, BitVec.toNat_ushiftRight,
    Nat.shiftRight_eq_div_pow,
    show 32 - (bound.log2 + 1) = 31 - bound.log2 by omega]
  exact Nat.lt_of_lt_of_le hsmall (Nat.log2_self_le hne)

section Termination

variable {draw : Nat → Word}

/-- Rejection ends for a generator that always comes back to low words. -/
theorem exists_accepts
    (hlow : ∀ position, ∃ offset, (draw (position + offset)).msb = false)
    {bound : Nat} (hpositive : 0 < bound) (hbound : bound < 2 ^ 32)
    (position : Nat) : ∃ offset, Accepts draw bound position offset := by
  obtain ⟨offset, hoffset⟩ := hlow position
  exact ⟨offset, getrandbits_lt hpositive hbound hoffset⟩

/-- The number that is drawn is the first one that is accepted. -/
theorem randbelow_eq {bound position offset : Nat}
    (haccepted : Accepts draw bound position offset)
    (hfirst : ∀ earlier < offset, ¬ Accepts draw bound position earlier) :
    randbelow draw bound position =
      (getrandbits (bitLength bound) (draw (position + offset)),
        position + offset + 1) := by
  classical
  have hexists : ∃ offset, Accepts draw bound position offset :=
    ⟨offset, haccepted⟩
  have hfind : Nat.find hexists = offset :=
    (Nat.find_eq_iff hexists).mpr ⟨haccepted, hfirst⟩
  rw [randbelow, dif_pos hexists]
  simp only [hfind]

end Termination

end SeededShuffle
