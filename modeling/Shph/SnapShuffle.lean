/-
The order of a round: the candidates as they stand, rotated, or shuffled with a
copy of Python's generator.  The copy keeps 624 words in an array and makes the
next 624 in their place; it gives the words of the one sequence, and the rounds
it shuffles come out as Python would shuffle them.
-/
import Shph.Library.LoopRun
import Shph.Library.SeededShuffle
import Shph.SnapProfile

namespace Shph.SnapPath

open LoopRun MersenneTwister SeededShuffle

structure PythonMt19937 where
  state : Vector Word 624
  index : Nat
deriving DecidableEq

/-- The loops of the seeding, with the places they are at. -/
structure KeyMixing where
  state : Vector Word 624
  stateIndex : Nat
  keyIndex : Nat

namespace PythonMt19937

def fill (state : Vector Word 624) (index : Nat) : Vector Word 624 :=
  let previous := state.getD (index - 1) 0#32
  state.setIfInBounds index
    (1812433253#32 * (previous ^^^ (previous >>> 30)) + BitVec.ofNat 32 index)

/-- The state after the first loop of the seeding. -/
def filled : Vector Word 624 :=
  (List.range' 1 623).foldl fill
    ((Vector.replicate 624 0#32).setIfInBounds 0 19650218#32)

/-- The words of the seed, the high one only where it is not zero. -/
def seedWords (seed : UInt64) : List Word :=
  if seed >>> 32 ≠ 0 then
    [BitVec.ofNat 32 seed.toNat, BitVec.ofNat 32 (seed >>> 32).toNat]
  else [BitVec.ofNat 32 seed.toNat]

/-- Store a word and go on; behind the last word comes the second, and the
first is a copy of the last. -/
def storeNext (mixing : KeyMixing) (value : Word) (keyIndex : Nat) :
    KeyMixing :=
  let state := mixing.state.setIfInBounds mixing.stateIndex value
  if 624 ≤ mixing.stateIndex + 1 then
    ⟨state.setIfInBounds 0 (state.getD 623 0#32), 1, keyIndex⟩
  else ⟨state, mixing.stateIndex + 1, keyIndex⟩

def mixKey (key : List Word) (mixing : KeyMixing) : KeyMixing :=
  let previous := mixing.state.getD (mixing.stateIndex - 1) 0#32
  storeNext mixing
    ((mixing.state.getD mixing.stateIndex 0#32 ^^^
        ((previous ^^^ (previous >>> 30)) * 1664525#32)) +
      key.getD mixing.keyIndex 0#32 + BitVec.ofNat 32 mixing.keyIndex)
    (if key.length ≤ mixing.keyIndex + 1 then 0 else mixing.keyIndex + 1)

def mixAgain (mixing : KeyMixing) : KeyMixing :=
  let previous := mixing.state.getD (mixing.stateIndex - 1) 0#32
  storeNext mixing
    ((mixing.state.getD mixing.stateIndex 0#32 ^^^
        ((previous ^^^ (previous >>> 30)) * 1566083941#32)) -
      BitVec.ofNat 32 mixing.stateIndex)
    mixing.keyIndex

def new (seed : UInt64) : PythonMt19937 :=
  let key := seedWords seed
  let mixed := (mixKey key)^[max 624 key.length] ⟨filled, 1, 0⟩
  let again := mixAgain^[623] mixed
  ⟨again.state.setIfInBounds 0 0x80000000#32, 624⟩

/-- One word of the next block, from its own word, the one behind it and the
one 397 places on. -/
def twistAt (state : Vector Word 624) (index following source : Nat) :
    Vector Word 624 :=
  let value := (state.getD index 0#32 &&& 0x80000000#32) |||
    (state.getD following 0#32 &&& 0x7fffffff#32)
  state.setIfInBounds index
    (state.getD source 0#32 ^^^ (value >>> 1) ^^^
      (if value &&& 1#32 = 0#32 then 0#32 else 0x9908b0df#32))

def twist (random : PythonMt19937) : PythonMt19937 :=
  let first := (List.range' 0 (624 - 397)).foldl
    (fun state index => twistAt state index (index + 1) (index + 397))
    random.state
  let second := (List.range' (624 - 397) 396).foldl
    (fun state index => twistAt state index (index + 1) (index - (624 - 397)))
    first
  ⟨twistAt second 623 0 396, 0⟩

def nextU32 (random : PythonMt19937) : Word × PythonMt19937 :=
  let ready := if 624 ≤ random.index then random.twist else random
  let value := ready.state.getD ready.index 0#32
  let value := value ^^^ (value >>> 11)
  let value := value ^^^ ((value <<< 7) &&& 0x9d2c5680#32)
  let value := value ^^^ ((value <<< 15) &&& 0xefc60000#32)
  (value ^^^ (value >>> 18), { ready with index := ready.index + 1 })

/-- The loop draws words until their leading bits are below the bound. -/
def randbelow (upperBound : Nat) :
    Nat → PythonMt19937 → Option (Nat × PythonMt19937)
  | 0, _ => none
  | fuel + 1, random =>
      let drawn := random.nextU32
      let value := (drawn.1 >>> (32 - bitLength upperBound)).toNat
      if value < upperBound then some (value, drawn.2)
      else randbelow upperBound fuel drawn.2

end PythonMt19937

section Rounds

variable {α : Type}

/-- The loop over the places from this one down to the second. -/
def shuffleDown (fuel : Nat) :
    Nat → PythonMt19937 → List α → Option (List α)
  | 0, _, values => some values
  | index + 1, random, values => do
      let (selected, random) ← random.randbelow (index + 2) fuel
      shuffleDown fuel index random (swap values (index + 1) selected)

def pythonSeededShuffle (fuel : Nat) (values : List α) (seed : UInt64) :
    Option (List α) :=
  shuffleDown fuel (values.length - 1) (.new seed) values

/-- The order of a round.  `drawn` is the seed that the thread's generator
gives where the policy has none. -/
def RetryPolicy.orderedRound (policy : RetryPolicy) (fuel : Nat)
    (drawn : UInt64) (candidates : List α) (roundIndex : UInt32) :
    Option (List α) :=
  if candidates.length ≤ 1 then some candidates
  else
    match policy.roundOrder with
    | .stable => some candidates
    | .rotate =>
        let offset := (roundIndex.toNat - 1) % candidates.length
        some (candidates.drop offset ++ candidates.take offset)
    | .shuffle =>
        let seed := policy.shuffleSeed.getD drawn
        pythonSeededShuffle fuel candidates (seed + roundIndex.toUInt64)

end Rounds

namespace PythonMt19937

theorem getD_setIfInBounds {place : Nat} (hplace : place < 624)
    (state : Vector Word 624) (value : Word) (index : Nat) :
    (state.setIfInBounds place value).getD index 0#32 =
      if index = place then value else state.getD index 0#32 := by
  simp only [Vector.getD, Vector.toArray_setIfInBounds,
    Array.getD_eq_getD_getElem?]
  by_cases hsame : index = place
  · rw [if_pos hsame, hsame,
      Array.getElem?_setIfInBounds_self_of_lt (by simpa using hplace)]
    rfl
  · rw [if_neg hsame, Array.getElem?_setIfInBounds_ne (Ne.symm hsame)]

section Twist

variable {init : Nat → Word} {base index : Nat} {state : Vector Word 624}

/-- The first words of the array are those of the next block already. -/
def Holds (init : Nat → Word) (base : Nat) (made : Nat)
    (state : Vector Word 624) : Prop :=
  ∀ index < 624, state.getD index 0#32 =
    word init (if index < made then base + 624 + index else base + index)

theorem Holds.twistAt (hholds : Holds init base index state)
    (hindex : index < 624) {following source : Nat}
    (hfollowing : state.getD following 0#32 = word init (base + index + 1))
    (hsource : state.getD source 0#32 = word init (base + index + 397)) :
    Holds init base (index + 1) (twistAt state index following source) := by
  have hvalue : state.getD index 0#32 = word init (base + index) := by
    rw [hholds index hindex, if_neg (Nat.lt_irrefl index)]
  intro place hplace
  rw [PythonMt19937.twistAt, getD_setIfInBounds hindex, hvalue, hfollowing,
    hsource]
  by_cases hsame : place = index
  · rw [if_pos hsame, hsame, if_pos (Nat.lt_succ_self index),
      Nat.add_right_comm base 624, word_add, MersenneTwister.twist, reduce,
      BitVec.xor_assoc]
  · have hmade : place < index + 1 ↔ place < index := by omega
    rw [if_neg hsame, hholds place hplace]
    simp only [hmade]

/-- In the first loop all three words of a turn are old. -/
theorem Holds.firstLoop (hholds : Holds init base 0 state) :
    Holds init base (624 - 397) ((List.range' 0 (624 - 397)).foldl
      (fun state index => PythonMt19937.twistAt state index (index + 1)
        (index + 397)) state) := by
  have hloop := @foldl_range'_invariant _ (Holds init base)
    (fun state index => PythonMt19937.twistAt state index (index + 1)
      (index + 397)) 0 (624 - 397) state hholds
  rw [Nat.zero_add] at hloop
  apply hloop
  intro index state _ hindex hholds
  apply hholds.twistAt (by omega)
  · rw [hholds _ (by omega), if_neg (by omega), Nat.add_assoc]
  · rw [hholds _ (by omega), if_neg (by omega), Nat.add_assoc]

/-- In the second loop the word 397 places on is new. -/
theorem Holds.secondLoop (hholds : Holds init base (624 - 397) state) :
    Holds init base 623 ((List.range' (624 - 397) 396).foldl
      (fun state index => PythonMt19937.twistAt state index (index + 1)
        (index - (624 - 397))) state) := by
  apply @foldl_range'_invariant _ (Holds init base)
    (fun state index => PythonMt19937.twistAt state index (index + 1)
      (index - (624 - 397))) (624 - 397) 396 state hholds
  intro index state hlow hhigh hholds
  apply hholds.twistAt (by omega)
  · rw [hholds _ (by omega), if_neg (by omega), Nat.add_assoc]
  · rw [hholds _ (by omega), if_pos (by omega)]
    exact congrArg (word init) (by omega)

/-- The block is made in place, and for its last word the first two are new as
well. -/
theorem Holds.twist {random : PythonMt19937}
    (hholds : Holds init base 0 random.state) :
    Holds init (base + 624) 0 random.twist.state := by
  have hmade := hholds.firstLoop.secondLoop
  have hlast := @Holds.twistAt _ _ _ _ hmade (by omega) 0 396
    (by rw [hmade 0 (by omega), if_pos (by omega)])
    (by rw [hmade 396 (by omega), if_pos (by omega)])
  intro place hplace
  rw [if_neg (Nat.not_lt_zero place)]
  have hword := hlast place hplace
  rwa [if_pos (by omega)] at hword

end Twist

section Seeding

/-- The array has the words of the reference, and the loops are at the same
places. -/
structure Agrees (mixing : KeyMixing) (seeding : Seeding) : Prop where
  state : ∀ index < 624,
    mixing.state.getD index 0#32 = seeding.words index
  place : mixing.stateIndex = seeding.place
  keyPlace : mixing.keyIndex = seeding.keyPlace
  inside : seeding.place < 624

variable {mixing : KeyMixing} {seeding : Seeding}

theorem Agrees.store (hagrees : Agrees mixing seeding) (value : Word)
    (keyIndex : Nat) :
    Agrees (storeNext mixing value keyIndex)
      (seeding.store value keyIndex) := by
  have hstored : ∀ index < 624,
      (mixing.state.setIfInBounds mixing.stateIndex value).getD index 0#32 =
        Function.update seeding.words seeding.place value index := by
    intro index hindex
    rw [hagrees.place, getD_setIfInBounds hagrees.inside,
      Function.update_apply, hagrees.state index hindex]
  unfold storeNext Seeding.store
  rw [hagrees.place] at hstored ⊢
  dsimp only
  split
  · refine ⟨fun index hindex => ?_, rfl, rfl, Nat.one_lt_ofNat⟩
    dsimp only
    rw [getD_setIfInBounds (by omega), Function.update_apply,
      hstored 623 (by omega), hstored index hindex]
  · rename_i hlow
    exact ⟨hstored, rfl, rfl, Nat.not_le.mp hlow⟩

theorem Agrees.mixKey (hagrees : Agrees mixing seeding) (key : List Word) :
    Agrees (mixKey key mixing) (seeding.absorb key) := by
  have hinside := hagrees.inside
  have hbefore : seeding.place - 1 < 624 := by omega
  rw [PythonMt19937.mixKey, Seeding.absorb, Seeding.mixed, hagrees.place,
    hagrees.keyPlace, hagrees.state _ hinside, hagrees.state _ hbefore]
  exact hagrees.store _ _

theorem Agrees.mixAgain (hagrees : Agrees mixing seeding) :
    Agrees (mixAgain mixing) seeding.spread := by
  have hinside := hagrees.inside
  have hbefore : seeding.place - 1 < 624 := by omega
  rw [PythonMt19937.mixAgain, Seeding.spread, Seeding.mixed, hagrees.place,
    hagrees.keyPlace, hagrees.state _ hinside, hagrees.state _ hbefore]
  exact hagrees.store _ _

/-- Loops of the same length keep to the reference. -/
theorem Agrees.iterate {turn : KeyMixing → KeyMixing}
    {step : Seeding → Seeding}
    (hturn : ∀ mixing seeding, Agrees mixing seeding →
      Agrees (turn mixing) (step seeding))
    (hagrees : Agrees mixing seeding) (count : Nat) :
    Agrees (turn^[count] mixing) (step^[count] seeding) := by
  induction count with
  | zero => exact hagrees
  | succ count ih =>
      rw [Function.iterate_succ_apply', Function.iterate_succ_apply']
      exact hturn _ _ ih

/-- The first loop writes the words of the reference one after the other. -/
theorem getD_filled : ∀ index < 624,
    filled.getD index 0#32 = initGenrand 19650218#32 index := by
  apply @foldl_range'_invariant _
    (fun made state => ∀ index < made,
      state.getD index 0#32 = initGenrand 19650218#32 index) fill 1 623
  · intro index hindex
    rw [Nat.lt_one_iff.mp hindex, getD_setIfInBounds (by omega), if_pos rfl,
      initGenrand]
  · intro index state hlow hhigh hmade place hplace
    rw [fill, getD_setIfInBounds (by omega)]
    split
    · rename_i hsame
      obtain ⟨before, rfl⟩ := Nat.exists_eq_add_of_le' hlow
      rw [hsame, hmade _ (by omega), Nat.add_sub_cancel, initGenrand]
    · exact hmade place (by omega)

theorem seedWords_eq (seed : UInt64) :
    seedWords seed = seedKey seed.toNat := by
  have hhigh : (seed >>> 32).toNat = seed.toNat / 2 ^ 32 := by
    rw [UInt64.toNat_shiftRight, Nat.shiftRight_eq_div_pow]
    rfl
  have hzero : seed >>> 32 = 0 ↔ seed.toNat < 2 ^ 32 := by
    rw [← UInt64.toNat_inj, hhigh, UInt64.toNat_zero,
      Nat.div_eq_zero_iff_lt (by decide)]
  unfold seedWords
  split
  · rename_i hne
    rw [seedKey_of_le (Nat.not_lt.mp (mt hzero.mpr hne)) seed.toNat_lt,
      hhigh]
  · rename_i hnot
    rw [seedKey_of_lt (hzero.mp (not_not.mp hnot))]

/-- A seeded generator starts with the words of the reference. -/
theorem holds_new (seed : UInt64) :
    Holds (initByArray (seedKey seed.toNat)) 0 0 (new seed).state := by
  have hstart : Agrees ⟨filled, 1, 0⟩ ⟨initGenrand 19650218#32, 1, 0⟩ := by
    refine ⟨fun index hindex => ?_, rfl, rfl, Nat.one_lt_ofNat⟩
    dsimp only
    rw [getD_filled index hindex]
  have hmixed := hstart.iterate
    (fun _ _ hagrees => hagrees.mixKey (seedWords seed))
    (max 624 (seedWords seed).length)
  have hagain := hmixed.iterate (fun _ _ hagrees => hagrees.mixAgain) 623
  intro index hindex
  rw [if_neg (Nat.not_lt_zero index), Nat.zero_add, word_start _ hindex,
    ← seedWords_eq, initByArray, new, getD_setIfInBounds (by omega),
    Function.update_apply, hagain.state index hindex]

end Seeding

section Stream

variable {init : Nat → Word} {random : PythonMt19937} {position : Nat}

/-- The next word that the generator gives is the one at this position. -/
def Gives (init : Nat → Word) (random : PythonMt19937) (position : Nat) :
    Prop :=
  ∃ base, Holds init base 0 random.state ∧ random.index ≤ 624 ∧
    base + random.index = position + 624

theorem gives_new (seed : UInt64) :
    Gives (initByArray (seedKey seed.toNat)) (new seed) 0 :=
  ⟨0, holds_new seed, Nat.le_refl 624, rfl⟩

theorem Gives.nextU32 (hgives : Gives init random position) :
    random.nextU32.1 = output init position ∧
      Gives init random.nextU32.2 (position + 1) := by
  obtain ⟨base, hholds, hindex, hposition⟩ := hgives
  have hready : ∃ base,
      Holds init base 0 (if 624 ≤ random.index then random.twist
        else random).state ∧
      (if 624 ≤ random.index then random.twist else random).index < 624 ∧
      base + (if 624 ≤ random.index then random.twist else random).index =
        position + 624 := by
    split
    · exact ⟨base + 624, hholds.twist, Nat.succ_pos 623, by
        rw [← hposition, Nat.le_antisymm hindex ‹_›]
        rfl⟩
    · exact ⟨base, hholds, Nat.not_le.mp ‹_›, hposition⟩
  obtain ⟨block, hblock, hinside, hplace⟩ := hready
  have hword := hblock _ hinside
  rw [if_neg (Nat.not_lt_zero _), hplace] at hword
  constructor
  · rw [output, ← hword]
    rfl
  · exact ⟨block, hblock, hinside, by
      rw [PythonMt19937.nextU32, ← Nat.add_assoc, hplace,
        Nat.add_right_comm]⟩

/-- With enough fuel the loop returns the first number that is accepted. -/
theorem Gives.randbelow {bound offset : Nat}
    (hgives : Gives init random position)
    (haccepted : SeededShuffle.Accepts (output init) bound position offset)
    (hfirst : ∀ earlier < offset,
      ¬ SeededShuffle.Accepts (output init) bound position earlier) :
    ∃ after, Gives init after (position + offset + 1) ∧
      ∀ fuel, offset < fuel → random.randbelow bound fuel =
        some (getrandbits (bitLength bound)
          (output init (position + offset)), after) := by
  obtain ⟨hword, hnext⟩ := hgives.nextU32
  induction offset generalizing random position with
  | zero =>
      rw [SeededShuffle.Accepts, Nat.add_zero position, ← hword] at haccepted
      refine ⟨_, hnext, fun fuel hfuel => ?_⟩
      obtain ⟨fuel, rfl⟩ := Nat.exists_eq_add_one.mpr hfuel
      rw [Nat.add_zero position, ← hword]
      exact if_pos haccepted
  | succ offset ih =>
      have hrejected := hfirst 0 (Nat.succ_pos offset)
      rw [SeededShuffle.Accepts, Nat.add_zero position, ← hword] at hrejected
      have hshift : ∀ distance, position + (distance + 1) =
          position + 1 + distance := fun distance => by omega
      obtain ⟨hnextWord, hnextGives⟩ := hnext.nextU32
      obtain ⟨after, hgivesAfter, hafter⟩ := ih hnext
        (by rwa [SeededShuffle.Accepts, ← hshift])
        (by
          intro earlier hearlier
          rw [SeededShuffle.Accepts, ← hshift]
          exact hfirst (earlier + 1) (Nat.succ_lt_succ hearlier))
        hnextWord hnextGives
      refine ⟨after, by rwa [hshift], fun fuel hfuel => ?_⟩
      obtain ⟨fuel, rfl⟩ := Nat.exists_eq_add_one.mpr
        (Nat.lt_of_le_of_lt (Nat.zero_le _) hfuel)
      rw [hshift, ← hafter fuel (Nat.lt_of_succ_lt_succ hfuel)]
      exact if_neg hrejected

end Stream

end PythonMt19937

section Shuffle

variable {α : Type} {init : Nat → Word}

open PythonMt19937

/-- With enough fuel the loop over the places does what Python does with the
same words. -/
theorem shuffleDown_eq {index : Nat} (hindex : index + 1 < 2 ^ 32)
    {random : PythonMt19937} {position : Nat}
    (hgives : Gives init random position) (values : List α) :
    ∃ enough, ∀ fuel, enough ≤ fuel →
      shuffleDown fuel index random values =
        some (shuffleFrom (output init) index position values) := by
  induction index generalizing random position values with
  | zero => exact ⟨0, fun _ _ => rfl⟩
  | succ index ih =>
      classical
      have haccepts := exists_accepts (exists_output_low init)
        (Nat.succ_pos (index + 1)) hindex position
      have hdrawn := randbelow_eq (Nat.find_spec haccepts)
        (fun _ => Nat.find_min haccepts)
      obtain ⟨after, hafter, hselected⟩ := hgives.randbelow
        (Nat.find_spec haccepts) (fun _ => Nat.find_min haccepts)
      obtain ⟨enough, henough⟩ := ih (Nat.lt_of_succ_lt hindex) hafter
        (swap values (index + 1) (getrandbits (bitLength (index + 2))
          (output init (position + Nat.find haccepts))))
      refine ⟨max (Nat.find haccepts + 1) enough, fun fuel hfuel => ?_⟩
      rw [shuffleDown, shuffleFrom, hdrawn,
        hselected fuel (Nat.le_trans (Nat.le_max_left _ _) hfuel)]
      exact henough fuel (Nat.le_trans (Nat.le_max_right _ _) hfuel)

/-- The shuffle ends, and is Python's for the same seed. -/
theorem pythonSeededShuffle_eq {values : List α}
    (hcount : values.length < 2 ^ 32) (seed : UInt64) :
    ∃ enough, ∀ fuel, enough ≤ fuel →
      pythonSeededShuffle fuel values seed =
        some (pythonShuffle seed.toNat values) :=
  shuffleDown_eq (by omega) (gives_new seed) values

theorem pythonShuffle_perm (seed : Nat) (values : List α) :
    (pythonShuffle seed values).Perm values :=
  shuffleFrom_perm _ _ _ values

end Shuffle

end Shph.SnapPath
