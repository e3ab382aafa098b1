/-
The 32-bit Mersenne Twister.  Its words are one sequence in which every word
follows from three of the 624 before it, and what a generator gives are the
words behind the first 624, tempered.  Everything but the seeding is linear over
bits.  No window of 624 words but zero stays as it is when it moves on, and so
no generator gives words with the top bit set for ever.
-/
import Mathlib

namespace MersenneTwister

universe u

abbrev Word := BitVec 32

section Sequence

/-- The product of a word with the matrix of the recurrence. -/
def reduce (word : Word) : Word :=
  (word >>> 1) ^^^ (if word &&& 1#32 = 0#32 then 0#32 else 0x9908b0df#32)

/-- The top bit of one word in front of the rest of the next, reduced. -/
def twist (upper lower : Word) : Word :=
  reduce ((upper &&& 0x80000000#32) ||| (lower &&& 0x7fffffff#32))

/-- The sequence of words behind 624 given ones. -/
def word (init : Nat → Word) (index : Nat) : Word :=
  if index < 624 then init index
  else word init (index - 624 + 397) ^^^
    twist (word init (index - 624)) (word init (index - 624 + 1))
termination_by index

def shiftDown (count : Nat) (word : Word) : Word := word ^^^ (word >>> count)

def shiftUp (count : Nat) (mask word : Word) : Word :=
  word ^^^ ((word <<< count) &&& mask)

def temper (word : Word) : Word :=
  shiftDown 18 (shiftUp 15 0xefc60000#32
    (shiftUp 7 0x9d2c5680#32 (shiftDown 11 word)))

/-- The words that a generator gives. -/
def output (init : Nat → Word) (index : Nat) : Word :=
  temper (word init (index + 624))

theorem word_start (init : Nat → Word) {index : Nat} (hindex : index < 624) :
    word init index = init index := by
  rw [word, if_pos hindex]

theorem word_add (init : Nat → Word) (index : Nat) :
    word init (index + 624) = word init (index + 397) ^^^
      twist (word init index) (word init (index + 1)) := by
  rw [word, if_neg (Nat.not_lt.mpr (Nat.le_add_left 624 index)),
    Nat.add_sub_cancel]

end Sequence

section Seeding

/-- The words of a generator while a key is mixed into them, and the places of
the next word and of the next part of the key. -/
structure Seeding where
  words : Nat → Word
  place : Nat
  keyPlace : Nat

def initGenrand (seed : Word) : Nat → Word
  | 0 => seed
  | index + 1 =>
      let previous := initGenrand seed index
      1812433253#32 * (previous ^^^ (previous >>> 30)) +
        BitVec.ofNat 32 (index + 1)

namespace Seeding

/-- The word at the place is replaced by itself, mixed with the word before
it. -/
def mixed (seeding : Seeding) (factor : Word) : Word :=
  let previous := seeding.words (seeding.place - 1)
  seeding.words seeding.place ^^^
    ((previous ^^^ (previous >>> 30)) * factor)

/-- Go on to the next place; behind the last word comes the second, and the
first is a copy of the last. -/
def store (seeding : Seeding) (value : Word) (keyPlace : Nat) : Seeding :=
  let words := Function.update seeding.words seeding.place value
  if 624 ≤ seeding.place + 1 then
    ⟨Function.update words 0 (words 623), 1, keyPlace⟩
  else ⟨words, seeding.place + 1, keyPlace⟩

def absorb (key : List Word) (seeding : Seeding) : Seeding :=
  seeding.store
    (seeding.mixed 1664525#32 + key.getD seeding.keyPlace 0#32 +
      BitVec.ofNat 32 seeding.keyPlace)
    (if key.length ≤ seeding.keyPlace + 1 then 0 else seeding.keyPlace + 1)

def spread (seeding : Seeding) : Seeding :=
  seeding.store
    (seeding.mixed 1566083941#32 - BitVec.ofNat 32 seeding.place)
    seeding.keyPlace

end Seeding

/-- The first words of a generator with this key. -/
def initByArray (key : List Word) : Nat → Word :=
  let absorbed := (Seeding.absorb key)^[max 624 key.length]
    ⟨initGenrand 19650218#32, 1, 0⟩
  Function.update (Seeding.spread^[623] absorbed).words 0 0x80000000#32

end Seeding

section Linear

theorem and_one_eq_zero_iff (word : Word) :
    word &&& 1#32 = 0#32 ↔ word.getLsbD 0 = false := by
  constructor
  · intro hzero
    have hbit := congrArg (BitVec.getLsbD · 0) hzero
    simpa using hbit
  · intro hbit
    ext index hindex
    cases index with
    | zero => simpa [← BitVec.getLsbD_eq_getElem] using hbit
    | succ index => simp [BitVec.getElem_one]

theorem select_xor (mask a b c d : Word) :
    ((a ^^^ b) &&& ~~~mask) ||| ((c ^^^ d) &&& mask) =
      ((a &&& ~~~mask) ||| (c &&& mask)) ^^^
        ((b &&& ~~~mask) ||| (d &&& mask)) := by
  ext index hindex
  simp only [BitVec.getElem_or, BitVec.getElem_and, BitVec.getElem_xor,
    BitVec.getElem_not]
  cases mask[index] <;> simp

theorem reduce_xor (left right : Word) :
    reduce (left ^^^ right) = reduce left ^^^ reduce right := by
  have hlast : ∀ a b : Bool,
      (if (a ^^ b) = false then 0#32 else 0x9908b0df#32 : Word) =
        (if a = false then 0#32 else 0x9908b0df#32) ^^^
          (if b = false then 0#32 else 0x9908b0df#32) := by
    decide
  simp only [reduce, and_one_eq_zero_iff, BitVec.getLsbD_xor,
    BitVec.ushiftRight_xor_distrib, hlast]
  ac_rfl

theorem twist_xor (a b c d : Word) :
    twist (a ^^^ b) (c ^^^ d) = twist a c ^^^ twist b d := by
  have hmask : (0x80000000#32 : Word) = ~~~0x7fffffff#32 := by decide
  rw [twist, twist, twist, hmask, select_xor, reduce_xor]

theorem shiftDown_xor (count : Nat) (left right : Word) :
    shiftDown count (left ^^^ right) =
      shiftDown count left ^^^ shiftDown count right := by
  rw [shiftDown, shiftDown, shiftDown, BitVec.ushiftRight_xor_distrib]
  ac_rfl

theorem shiftUp_xor (count : Nat) (mask left right : Word) :
    shiftUp count mask (left ^^^ right) =
      shiftUp count mask left ^^^ shiftUp count mask right := by
  have hand : ∀ x y : Word,
      (x ^^^ y) &&& mask = (x &&& mask) ^^^ (y &&& mask) := by
    intro x y
    ext index hindex
    simp only [BitVec.getElem_and, BitVec.getElem_xor]
    cases mask[index] <;> simp
  rw [shiftUp, shiftUp, shiftUp, BitVec.shiftLeft_xor_distrib, hand]
  ac_rfl

theorem temper_xor (left right : Word) :
    temper (left ^^^ right) = temper left ^^^ temper right := by
  simp only [temper, shiftDown_xor, shiftUp_xor]

/-- Only zero is reduced to zero: a reduced odd word has the top bit set, which
no shifted word has. -/
theorem eq_zero_of_reduce {word : Word} (hzero : reduce word = 0#32) :
    word = 0#32 := by
  rw [reduce, BitVec.xor_eq_zero_iff] at hzero
  split at hzero
  · rename_i heven
    rw [and_one_eq_zero_iff] at heven
    ext index hindex
    cases index with
    | zero => simpa [← BitVec.getLsbD_eq_getElem] using heven
    | succ index =>
        have hbit := congrArg (BitVec.getLsbD · index) hzero
        simpa [BitVec.getLsbD_eq_getElem hindex, Nat.add_comm] using hbit
  · have htop := congrArg (BitVec.getLsbD · 31) hzero
    simp at htop

theorem twist_self (word : Word) : twist word word = reduce word := by
  have hall : (0x80000000#32 ||| 0x7fffffff#32 : Word) =
      BitVec.allOnes 32 := by
    decide
  rw [twist, ← BitVec.and_or_distrib_left, hall, BitVec.and_allOnes]

theorem xor_eq_xor_comm {a b c d : Word} (hsame : a ^^^ b = c ^^^ d) :
    a ^^^ c = b ^^^ d := by
  rw [← BitVec.xor_eq_zero_iff] at hsame ⊢
  rw [← hsame]
  ac_rfl

end Linear

section Window

/-- A step that keeps a sum and has no nonzero fixed point, in the sense that
`x ↦ step x + x` is injective, does not keep a linear bit set for ever.  A bit
that stays the same vanishes on `step x + x`, and some power of that map is the
identity. -/
theorem exists_iterate_bit_false {V : Type u} [Finite V] {step : V → V}
    {plus : V → V → V} {bit : V → Bool}
    (hstep : ∀ x y, step (plus x y) = plus (step x) (step y))
    (hbit : ∀ x y, bit (plus x y) = (bit x ^^ bit y))
    (hinj : Function.Injective fun x => plus (step x) x) (start : V) :
    ∃ count, bit (step^[count] start) = false := by
  by_contra hnone
  have hset : ∀ count, bit (step^[count] start) = true := by
    intro count
    by_contra hclear
    exact hnone ⟨count, Bool.eq_false_iff.mpr hclear⟩
  let move : V → V := fun x => plus (step x) x
  have hmove : ∀ x count, step^[count] (move x) = move (step^[count] x) := by
    intro x count
    induction count generalizing x with
    | zero => rfl
    | succ count ih =>
        rw [Function.iterate_succ_apply, Function.iterate_succ_apply, ← ih]
        exact congrArg step^[count] (hstep (step x) x)
  have hsteady : ∀ x value, (∀ count, bit (step^[count] x) = value) →
      ∀ count, bit (step^[count] (move x)) = false := by
    intro x value hvalue count
    rw [hmove, hbit, ← Function.iterate_succ_apply' step, hvalue, hvalue,
      Bool.xor_self]
  have hcleared : ∀ turns count,
      bit (step^[count] (move^[turns + 1] start)) = false := by
    intro turns
    induction turns with
    | zero => exact hsteady start true hset
    | succ turns ih =>
        intro count
        rw [Function.iterate_succ_apply']
        exact hsteady _ false ih count
  obtain ⟨period, hpositive, hperiod⟩ :=
    Function.mem_periodicPts.mp (hinj.mem_periodicPts start)
  obtain ⟨turns, rfl⟩ := Nat.exists_eq_add_one.mpr hpositive
  have hstart := hcleared turns 0
  rw [Function.IsPeriodicPt, Function.IsFixedPt] at hperiod
  have hback : move^[turns + 1] start = start := hperiod
  rw [hback] at hstart
  rw [hset 0] at hstart
  cases hstart

/-- 624 neighbouring words of the sequence. -/
abbrev Window := Fin 624 → Word

def next (window : Window) : Window := fun index =>
  if hindex : index.val + 1 < 624 then window ⟨index.val + 1, hindex⟩
  else window 397 ^^^ twist (window 0) (window 1)

theorem next_of_lt {index : Fin 624} (hindex : index.val + 1 < 624)
    (window : Window) :
    next window index = window ⟨index.val + 1, hindex⟩ :=
  dif_pos hindex

theorem next_last (window : Window) :
    next window 623 = window 397 ^^^ twist (window 0) (window 1) :=
  dif_neg (by decide)

theorem eq_last {index : Fin 624} (hindex : ¬ index.val + 1 < 624) :
    index = 623 := by
  apply Fin.ext
  change index.val = 623
  omega

def sum (left right : Window) : Window := fun index =>
  left index ^^^ right index

def windowAt (init : Nat → Word) (start : Nat) : Window := fun index =>
  word init (start + index)

theorem next_windowAt (init : Nat → Word) (start : Nat) :
    next (windowAt init start) = windowAt init (start + 1) := by
  funext index
  by_cases hindex : index.val + 1 < 624
  · rw [next_of_lt hindex, windowAt, windowAt, Nat.add_assoc, Nat.add_comm 1]
  · rw [eq_last hindex, next_last]
    exact (word_add init start).symm

theorem iterate_next_windowAt (init : Nat → Word) (start count : Nat) :
    next^[count] (windowAt init start) = windowAt init (start + count) := by
  induction count with
  | zero => rfl
  | succ count ih =>
      rw [Function.iterate_succ_apply', ih, next_windowAt, Nat.add_assoc]

theorem next_sum (left right : Window) :
    next (sum left right) = sum (next left) (next right) := by
  funext index
  by_cases hindex : index.val + 1 < 624
  · rw [next_of_lt hindex, sum, sum, next_of_lt hindex, next_of_lt hindex]
  · rw [eq_last hindex, next_last, sum, sum, sum, sum, next_last, next_last,
      twist_xor]
    ac_rfl

/-- The difference of two windows that move on by the same difference is the
same word everywhere, and the recurrence makes it zero. -/
theorem sum_next_injective :
    Function.Injective fun window : Window => sum (next window) window := by
  intro left right hsame
  have hplace : ∀ index : Fin 624,
      next left index ^^^ left index = next right index ^^^ right index :=
    fun index => congrFun hsame index
  have hconstant : ∀ (index : Nat) (hindex : index < 624),
      left ⟨index, hindex⟩ ^^^ right ⟨index, hindex⟩ = left 0 ^^^ right 0 := by
    intro index hindex
    induction index with
    | zero => rfl
    | succ index ih =>
        have hstep := hplace ⟨index, Nat.lt_of_succ_lt hindex⟩
        rw [next_of_lt hindex, next_of_lt hindex] at hstep
        exact (xor_eq_xor_comm hstep).trans (ih (Nat.lt_of_succ_lt hindex))
  have hreduced : reduce (left 0 ^^^ right 0) = 0#32 := by
    have hlast := BitVec.xor_eq_zero_iff.mpr (hplace 623)
    rw [next_last, next_last] at hlast
    calc reduce (left 0 ^^^ right 0)
      _ = twist (left 0 ^^^ right 0) (left 1 ^^^ right 1) := by
          rw [← twist_self]
          exact congrArg (twist _) (hconstant 1 (by decide)).symm
      _ = (left 397 ^^^ right 397) ^^^ (left 623 ^^^ right 623) ^^^
          (twist (left 0) (left 1) ^^^ twist (right 0) (right 1)) := by
          have h397 : left 397 ^^^ right 397 = left 0 ^^^ right 0 :=
            hconstant 397 (by decide)
          have h623 : left 623 ^^^ right 623 = left 0 ^^^ right 0 :=
            hconstant 623 (by decide)
          rw [h397, h623, BitVec.xor_self, BitVec.zero_xor, twist_xor]
      _ = 0#32 := by
          rw [← hlast]
          ac_rfl
  funext index
  have hdifference := hconstant index index.isLt
  rw [eq_zero_of_reduce hreduced, BitVec.xor_eq_zero_iff] at hdifference
  exact hdifference

/-- Wherever a generator is, it gives a word with a clear top bit sooner or
later. -/
theorem exists_output_low (init : Nat → Word) (position : Nat) :
    ∃ offset, (output init (position + offset)).msb = false := by
  have hfinite : Finite Word :=
    Finite.of_injective BitVec.toFin fun _ _ => BitVec.eq_of_toFin_eq
  obtain ⟨offset, hoffset⟩ := @exists_iterate_bit_false Window _ next sum
    (fun window => (temper (window 0)).msb) next_sum
    (fun left right => by
      rw [sum, temper_xor, BitVec.msb_xor]) sum_next_injective
    (windowAt init (position + 624))
  rw [iterate_next_windowAt] at hoffset
  refine ⟨offset, ?_⟩
  rw [output, Nat.add_right_comm]
  exact hoffset

end Window

end MersenneTwister
