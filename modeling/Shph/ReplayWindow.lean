/-
The sliding anti-replay window over AEAD counter nonces.  The bitmap is a
vector of 64-bit words that a forward jump shifts across word boundaries; the
representation invariant says that bit `i` is set exactly when the nonce
`highest - 1 - i` has been accepted.
-/
import Shph.Library.SlidingWindow
import Shph.Library.StatefulRun

namespace Shph

open StatefulRun SlidingWindow

/-- Maximum replay-window width accepted from configuration or a caller. -/
def maxReplayWindowSize : Nat := 64 * 1024

/-- Highest accepted nonce, the bitmap of the accepted nonces below it, and
the window width in nonce units. -/
structure ReplayWindow where
  highest : Option Nat
  bits : List (BitVec 64)
  size : Nat
deriving Repr, DecidableEq

/-- Bit `index` of a word vector, counted from the low bit of the first word. -/
def bitAt (bits : List (BitVec 64)) (index : Nat) : Bool :=
  (bits.getD (index / 64) 0).getLsbD (index % 64)

/-- `bits[index / 64] |= 1 << (index % 64)`. -/
def setBit (bits : List (BitVec 64)) (index : Nat) : List (BitVec 64) :=
  bits.modify (index / 64) (· ||| (1#64 <<< (index % 64)))

namespace ReplayWindow

/-- The width is clamped to `64 ..= MAX_REPLAY_WINDOW_SIZE` and rounded up to
whole words. -/
def new (size : Nat) : ReplayWindow :=
  let size := min (max size 64) maxReplayWindowSize
  let words := (size + 63) / 64
  { highest := none, bits := List.replicate words 0, size := words * 64 }

/-- One iteration of the word-aligned loop of `shift_down`. -/
def moveWord (bits : List (BitVec 64)) (wordShift : Nat)
    (out : List (BitVec 64)) (i : Nat) : List (BitVec 64) :=
  if i + wordShift < bits.length then
    out.set (i + wordShift) (bits.getD i 0)
  else out

/-- One iteration of the carrying loop of `shift_down`: the low part stays in
the target word and the high part is carried into the next one. -/
def carryWord (bits : List (BitVec 64)) (wordShift bitShift : Nat)
    (out : List (BitVec 64)) (i : Nat) : List (BitVec 64) :=
  let lo := bits.getD i 0 <<< bitShift
  let out :=
    if i + wordShift < bits.length then
      out.modify (i + wordShift) (· ||| lo)
    else out
  let hi := bits.getD i 0 >>> (64 - bitShift)
  if i + wordShift + 1 < bits.length then
    out.modify (i + wordShift + 1) (· ||| hi)
  else out

/-- Shift the bitmap down by `gap` positions, dropping the nonces that fall
out of the window. -/
def shiftDown (bits : List (BitVec 64)) (gap : Nat) : List (BitVec 64) :=
  let wordShift := gap / 64
  let bitShift := gap % 64
  let words := bits.length
  let out := List.replicate words 0
  if bitShift = 0 then (List.range words).foldl (moveWord bits wordShift) out
  else (List.range words).foldl (carryWord bits wordShift bitShift) out

/-- The bitmap after a forward jump by `gap`.  A gap larger than the window
resets it; otherwise the old highest nonce is marked at `gap - 1`. -/
def advanceBits (window : ReplayWindow) (gap : Nat) : List (BitVec 64) :=
  let cleared := window.bits.map fun _ => 0#64
  if window.size < gap then cleared
  else if gap = window.size then
    cleared.modify (window.bits.length - 1) (· ||| (1#64 <<< 63))
  else setBit (shiftDown window.bits gap) (gap - 1)

/-- Record `nonce` if it is fresh.  The answer is `false` for a replay and for
a nonce below the window. -/
def checkAndInsert (window : ReplayWindow) (nonce : Nat) :
    Bool × ReplayWindow :=
  match window.highest with
  | none => (true, { window with highest := some nonce })
  | some highest =>
      if highest < nonce then
        (true, { window with
          highest := some nonce, bits := window.advanceBits (nonce - highest) })
      else
        let offset := highest - nonce
        if offset = 0 ∨ window.size < offset then (false, window)
        else
          let bitIndex := offset - 1
          let mask := 1#64 <<< (bitIndex % 64)
          if window.bits.getD (bitIndex / 64) 0 &&& mask ≠ 0 then
            (false, window)
          else (true, { window with bits := setBit window.bits bitIndex })

end ReplayWindow

theorem getLsbD_one_shiftLeft (index bit : Nat) (hindex : index < 64) :
    (1#64 <<< index).getLsbD bit = decide (bit = index) := by
  rw [← BitVec.twoPow_eq, BitVec.getLsbD_twoPow]
  simp [hindex, eq_comm]

/-- Testing one bit through a mask. -/
theorem and_one_shiftLeft_ne_zero_iff (word : BitVec 64) (index : Nat)
    (hindex : index < 64) :
    word &&& (1#64 <<< index) ≠ 0 ↔ word.getLsbD index = true := by
  constructor
  · intro hne
    by_contra hclear
    apply hne
    apply BitVec.eq_of_getLsbD_eq
    intro bit hbit
    rw [BitVec.getLsbD_and, getLsbD_one_shiftLeft index bit hindex]
    by_cases heq : bit = index
    · subst heq
      simpa using hclear
    · simp [heq]
  · intro hset hzero
    have hbit : (word &&& (1#64 <<< index)).getLsbD index = false := by
      rw [hzero]
      exact BitVec.getLsbD_zero
    rw [BitVec.getLsbD_and, getLsbD_one_shiftLeft index index hindex,
      hset] at hbit
    simp at hbit

theorem getD_modify (words : List (BitVec 64)) (f : BitVec 64 → BitVec 64)
    (index tested : Nat) (hindex : index < words.length) :
    (words.modify index f).getD tested 0 =
      if tested = index then f (words.getD tested 0)
      else words.getD tested 0 := by
  simp only [List.getD_eq_getElem?_getD, List.getElem?_modify]
  by_cases heq : index = tested
  · subst heq
    simp [List.getElem?_eq_getElem hindex]
  · simp [heq, Ne.symm heq]

theorem getD_set (words : List (BitVec 64)) (word : BitVec 64)
    (index tested : Nat) (hindex : index < words.length) :
    (words.set index word).getD tested 0 =
      if tested = index then word else words.getD tested 0 := by
  simp only [List.getD_eq_getElem?_getD]
  by_cases heq : index = tested
  · subst heq
    simp [hindex]
  · simp [heq, Ne.symm heq]

@[simp] theorem getD_replicate_zero (words index : Nat) :
    (List.replicate words (0#64)).getD index 0 = 0 := by
  rw [List.getD_eq_getElem?_getD, List.getElem?_replicate]
  split <;> rfl

@[simp] theorem setBit_length (bits : List (BitVec 64)) (index : Nat) :
    (setBit bits index).length = bits.length := by
  simp [setBit]

theorem bitAt_setBit (bits : List (BitVec 64)) (index tested : Nat)
    (hindex : index < 64 * bits.length) :
    bitAt (setBit bits index) tested =
      (bitAt bits tested || decide (tested = index)) := by
  have hword : index / 64 < bits.length := by omega
  have hbit : index % 64 < 64 := Nat.mod_lt _ (by decide)
  unfold bitAt setBit
  rw [getD_modify _ _ _ _ hword]
  by_cases hsame : tested / 64 = index / 64
  · rw [if_pos hsame, BitVec.getLsbD_or, getLsbD_one_shiftLeft _ _ hbit]
    congr 1
    rw [decide_eq_decide]
    omega
  · have hne : tested ≠ index := by
      rintro rfl
      exact hsame rfl
    simp [hsame, hne]

namespace ReplayWindow

@[simp] theorem moveWord_length (bits : List (BitVec 64)) (wordShift : Nat)
    (out : List (BitVec 64)) (i : Nat) :
    (moveWord bits wordShift out i).length = out.length := by
  unfold moveWord
  split <;> simp

@[simp] theorem carryWord_length (bits : List (BitVec 64))
    (wordShift bitShift : Nat) (out : List (BitVec 64)) (i : Nat) :
    (carryWord bits wordShift bitShift out i).length = out.length := by
  unfold carryWord
  dsimp only
  split <;> split <;> simp

theorem moveWord_getD (bits : List (BitVec 64)) (wordShift : Nat)
    {out : List (BitVec 64)} (hout : out.length = bits.length) (i : Nat)
    {j : Nat} (hj : j < bits.length) :
    (moveWord bits wordShift out i).getD j 0 =
      if j = i + wordShift then bits.getD i 0 else out.getD j 0 := by
  unfold moveWord
  by_cases hin : i + wordShift < bits.length
  · rw [if_pos hin, getD_set _ _ _ _ (hout.symm ▸ hin)]
  · rw [if_neg hin, if_neg (by omega)]

theorem carryWord_getD (bits : List (BitVec 64)) (wordShift bitShift : Nat)
    {out : List (BitVec 64)} (hout : out.length = bits.length) (i : Nat)
    {j : Nat} (hj : j < bits.length) :
    (carryWord bits wordShift bitShift out i).getD j 0 =
      out.getD j 0 |||
        (if j = i + wordShift then bits.getD i 0 <<< bitShift else 0) |||
        (if j = i + wordShift + 1 then bits.getD i 0 >>> (64 - bitShift)
          else 0) := by
  have hlow : (if i + wordShift < bits.length then
      out.modify (i + wordShift) (· ||| bits.getD i 0 <<< bitShift)
        else out).getD j 0 = out.getD j 0 |||
      (if j = i + wordShift then bits.getD i 0 <<< bitShift else 0) := by
    by_cases hin : i + wordShift < bits.length
    · rw [if_pos hin, getD_modify _ _ _ _ (hout.symm ▸ hin)]
      split <;> simp
    · rw [if_neg hin, if_neg (by omega)]
      simp
  unfold carryWord
  dsimp only
  rw [← hlow]
  by_cases hin : i + wordShift + 1 < bits.length
  · rw [if_pos hin, getD_modify]
    · split <;> simp
    · split <;> simp [hout, hin]
  · rw [if_neg hin, if_neg (show ¬ j = i + wordShift + 1 by omega)]
    simp

/-- The word-aligned loop after `count` iterations: the first `count` source
words stand `wordShift` places higher. -/
theorem foldl_moveWord (bits : List (BitVec 64)) (wordShift count : Nat) :
    let out := (List.range count).foldl (moveWord bits wordShift)
      (List.replicate bits.length 0)
    out.length = bits.length ∧
      ∀ j < bits.length, out.getD j 0 =
        if wordShift ≤ j ∧ j < count + wordShift then
          bits.getD (j - wordShift) 0
        else 0 := by
  induction count with
  | zero =>
      refine ⟨by simp, fun j hj => ?_⟩
      rw [if_neg (by omega)]
      exact getD_replicate_zero bits.length j
  | succ count ih =>
      simp only [List.range_succ, List.foldl_append, List.foldl_cons,
        List.foldl_nil, moveWord_length]
      refine ⟨ih.1, fun j hj => ?_⟩
      rw [moveWord_getD bits wordShift ih.1 count hj, ih.2 j hj]
      by_cases heq : j = count + wordShift
      · rw [if_pos heq, if_pos (by omega)]
        congr 1
        omega
      · rw [if_neg heq]
        congr 1
        rw [eq_iff_iff]
        omega

/-- The carrying loop after `count` iterations: every target word joins the
low part of one source word with the carry of the word before it. -/
theorem foldl_carryWord (bits : List (BitVec 64))
    (wordShift bitShift count : Nat) :
    let out := (List.range count).foldl (carryWord bits wordShift bitShift)
      (List.replicate bits.length 0)
    out.length = bits.length ∧
      ∀ j < bits.length, out.getD j 0 =
        (if wordShift ≤ j ∧ j < count + wordShift then
          bits.getD (j - wordShift) 0 <<< bitShift else 0) |||
        (if wordShift + 1 ≤ j ∧ j < count + (wordShift + 1) then
          bits.getD (j - (wordShift + 1)) 0 >>> (64 - bitShift) else 0) := by
  induction count with
  | zero =>
      refine ⟨by simp, fun j hj => ?_⟩
      rw [if_neg (by omega), if_neg (by omega)]
      simp
  | succ count ih =>
      simp only [List.range_succ, List.foldl_append, List.foldl_cons,
        List.foldl_nil, carryWord_length]
      refine ⟨ih.1, fun j hj => ?_⟩
      rw [carryWord_getD bits wordShift bitShift ih.1 count hj, ih.2 j hj]
      have hsecond (hhigh : j ≠ count + wordShift + 1) :
          (wordShift + 1 ≤ j ∧ j < count + 1 + (wordShift + 1)) =
          (wordShift + 1 ≤ j ∧ j < count + (wordShift + 1)) := by
        rw [eq_iff_iff]
        omega
      by_cases hlow : j = count + wordShift
      · have hnot : ¬ (wordShift ≤ j ∧ j < count + wordShift) := by omega
        have hnow : wordShift ≤ j ∧ j < count + 1 + wordShift := by omega
        have hhigh : ¬ j = count + wordShift + 1 := by omega
        simp only [if_neg hnot, if_pos hnow, if_pos hlow, if_neg hhigh,
          hsecond hhigh, show j - wordShift = count by omega]
        simp [BitVec.or_comm]
      · have hfirst : (wordShift ≤ j ∧ j < count + 1 + wordShift) =
            (wordShift ≤ j ∧ j < count + wordShift) := by
          rw [eq_iff_iff]
          omega
        by_cases hhigh : j = count + wordShift + 1
        · have hnot : ¬ (wordShift + 1 ≤ j ∧ j < count + (wordShift + 1)) := by
            omega
          have hnow : wordShift + 1 ≤ j ∧ j < count + 1 + (wordShift + 1) := by
            omega
          simp only [hfirst, if_neg hnot, if_pos hnow, if_neg hlow,
            if_pos hhigh, show j - (wordShift + 1) = count by omega]
          simp
        · simp only [hfirst, hsecond hhigh, if_neg hlow, if_neg hhigh]
          simp

@[simp] theorem shiftDown_length (bits : List (BitVec 64)) (gap : Nat) :
    (shiftDown bits gap).length = bits.length := by
  unfold shiftDown
  dsimp only
  split
  · exact (foldl_moveWord bits (gap / 64) bits.length).1
  · exact (foldl_carryWord bits (gap / 64) (gap % 64) bits.length).1

/-- The multi-word shift moves every bit up by exactly `gap` positions. -/
theorem bitAt_shiftDown (bits : List (BitVec 64)) (gap index : Nat)
    (hindex : index < 64 * bits.length) :
    bitAt (shiftDown bits gap) index =
      (decide (gap ≤ index) && bitAt bits (index - gap)) := by
  have hword : index / 64 < bits.length := by omega
  unfold bitAt shiftDown
  dsimp only
  by_cases haligned : gap % 64 = 0
  · rw [if_pos haligned,
      (foldl_moveWord bits (gap / 64) bits.length).2 _ hword]
    by_cases hle : gap ≤ index
    · rw [if_pos (by omega), show (index - gap) / 64 = index / 64 - gap / 64
        by omega, show (index - gap) % 64 = index % 64 by omega]
      simp [hle]
    · rw [if_neg (by omega)]
      simp [hle]
  · rw [if_neg haligned,
      (foldl_carryWord bits (gap / 64) (gap % 64) bits.length).2 _ hword,
      BitVec.getLsbD_or]
    -- The tested bit comes from the low part of one word or from the carry of
    -- the word before it, never from both.
    by_cases hlow : gap % 64 ≤ index % 64
    · have hcarry : ((if gap / 64 + 1 ≤ index / 64 ∧
          index / 64 < bits.length + (gap / 64 + 1) then
            bits.getD (index / 64 - (gap / 64 + 1)) 0 >>> (64 - gap % 64)
          else 0) : BitVec 64).getLsbD (index % 64) = false := by
        split
        · rw [BitVec.getLsbD_ushiftRight]
          exact BitVec.getLsbD_of_ge _ _ (by omega)
        · exact BitVec.getLsbD_zero
      rw [hcarry, Bool.or_false]
      by_cases hle : gap ≤ index
      · rw [if_pos (by omega), BitVec.getLsbD_shiftLeft,
          show (index - gap) / 64 = index / 64 - gap / 64 by omega,
          show (index - gap) % 64 = index % 64 - gap % 64 by omega]
        have hbit : index % 64 < 64 := Nat.mod_lt _ (by decide)
        simp [hle, hbit, hlow]
      · rw [if_neg (by omega)]
        simp [hle]
    · have hshift : ((if gap / 64 ≤ index / 64 ∧
          index / 64 < bits.length + gap / 64 then
            bits.getD (index / 64 - gap / 64) 0 <<< (gap % 64)
          else 0) : BitVec 64).getLsbD (index % 64) = false := by
        split
        · rw [BitVec.getLsbD_shiftLeft]
          simp [Nat.lt_of_not_le hlow]
        · exact BitVec.getLsbD_zero
      rw [hshift, Bool.false_or]
      by_cases hle : gap ≤ index
      · rw [if_pos (by omega), BitVec.getLsbD_ushiftRight,
          show (index - gap) / 64 = index / 64 - (gap / 64 + 1) by omega,
          show (index - gap) % 64 = 64 - gap % 64 + index % 64 by omega]
        simp [hle]
      · rw [if_neg (by omega)]
        simp [hle]

/-- The bitmap read by distance below the highest nonce.  Distance zero is the
highest nonce itself, which the bitmap does not store. -/
def distanceBit (bits : List (BitVec 64)) (distance : Nat) : Bool :=
  decide (distance = 0) || bitAt bits (distance - 1)

/-- The representation invariant: the window holds exactly the information of
the accepted nonces `seen` that are still inside it. -/
structure Represents (window : ReplayWindow) (seen : List Nat) : Prop where
  size_eq : window.size = 64 * window.bits.length
  words_pos : 0 < window.bits.length
  fresh : window.highest = none →
    seen = [] ∧ ∀ index, bitAt window.bits index = false
  tracks : ∀ highest, window.highest = some highest →
    Tracks (distanceBit window.bits) (window.size + 1) highest seen

theorem bitAt_of_all_zero {bits : List (BitVec 64)}
    (hzero : ∀ word ∈ bits, word = 0) (index : Nat) :
    bitAt bits index = false := by
  unfold bitAt
  rw [List.getD_eq_getElem?_getD]
  cases hword : bits[index / 64]? with
  | none => simp
  | some word =>
      have hmem := List.mem_of_getElem? hword
      simp [hzero word hmem]

theorem new_represents (size : Nat) : Represents (new size) [] where
  size_eq := by
    simp only [new, List.length_replicate]
    omega
  words_pos := by
    simp only [new, List.length_replicate, maxReplayWindowSize]
    omega
  fresh := by
    intro _
    refine ⟨rfl, bitAt_of_all_zero fun word hword => ?_⟩
    exact List.eq_of_mem_replicate hword
  tracks := by
    intro highest hsome
    simp [new] at hsome

@[simp] theorem advanceBits_length (window : ReplayWindow) (gap : Nat) :
    (window.advanceBits gap).length = window.bits.length := by
  unfold advanceBits
  dsimp only
  split
  · simp
  · split <;> simp

/-- The bitmap a forward jump leaves behind: bit `gap - 1` is the old highest
nonce, everything else moved up by the gap, whichever of the three paths the
gap selects. -/
theorem bitAt_advanceBits {window : ReplayWindow} {seen : List Nat}
    (hrep : Represents window seen) (gap index : Nat) (hgap : 0 < gap)
    (hindex : index < window.size) :
    bitAt (window.advanceBits gap) index =
      (decide (index = gap - 1) ||
        (decide (gap ≤ index) && bitAt window.bits (index - gap))) := by
  have hsize := hrep.size_eq
  have hwords := hrep.words_pos
  have hcleared (tested : Nat) :
      bitAt (window.bits.map fun _ => 0#64) tested = false := by
    apply bitAt_of_all_zero
    intro word hword
    rw [List.mem_map] at hword
    obtain ⟨_, _, rfl⟩ := hword
    rfl
  unfold advanceBits
  dsimp only
  by_cases hfar : window.size < gap
  · rw [if_pos hfar, hcleared]
    have hne : index ≠ gap - 1 := by omega
    have hlt : ¬ gap ≤ index := by omega
    simp [hne, hlt]
  · rw [if_neg hfar]
    by_cases hexact : gap = window.size
    · have hlast : (window.bits.map fun _ => 0#64).modify
          (window.bits.length - 1) (· ||| (1#64 <<< 63)) =
          setBit (window.bits.map fun _ => 0#64) (gap - 1) := by
        unfold setBit
        rw [show (gap - 1) / 64 = window.bits.length - 1 by omega,
          show (gap - 1) % 64 = 63 by omega]
      have hlt : ¬ gap ≤ index := by omega
      rw [if_pos hexact, hlast, bitAt_setBit _ _ _ (by simp; omega), hcleared]
      simp [hlt]
    · rw [if_neg hexact, bitAt_setBit _ _ _ (by simp; omega),
        bitAt_shiftDown _ _ _ (by omega)]
      exact Bool.or_comm _ _

/-- A forward jump keeps the representation and records the new highest. -/
theorem Represents.advance {window : ReplayWindow} {seen : List Nat}
    (hrep : Represents window seen) {highest nonce : Nat}
    (htop : window.highest = some highest) (habove : highest < nonce) :
    Represents { window with
      highest := some nonce, bits := window.advanceBits (nonce - highest) }
      (seen ++ [nonce]) where
  size_eq := by simpa using hrep.size_eq
  words_pos := by simpa using hrep.words_pos
  fresh := by simp
  tracks := by
    intro top hsome
    rw [Option.some.injEq] at hsome
    subst hsome
    apply (hrep.tracks highest htop).advance habove
    intro distance hdistance
    by_cases hzero : distance = 0
    · simp [hzero, distanceBit]
    · have hbit := bitAt_advanceBits hrep (nonce - highest)
        (distance - 1) (by omega) (by omega)
      simp only [distanceBit, hzero, decide_false, Bool.false_or, hbit]
      by_cases hgap : distance = nonce - highest
      · simp [hgap]
      · have hfirst : distance - 1 ≠ nonce - highest - 1 := by omega
        have hsub : distance - 1 - (nonce - highest) =
            distance - (nonce - highest) - 1 := by omega
        by_cases hle : nonce - highest ≤ distance
        · have hle' : nonce - highest ≤ distance - 1 := by omega
          have hpos : distance - (nonce - highest) ≠ 0 := by omega
          simp [hfirst, hle, hle', hpos, hsub]
        · have hle' : ¬ nonce - highest ≤ distance - 1 := by omega
          simp [hfirst, hle, hle']

/-- Marking an offset inside the window keeps the representation. -/
theorem Represents.mark {window : ReplayWindow} {seen : List Nat}
    (hrep : Represents window seen) {highest nonce : Nat}
    (htop : window.highest = some highest) (hbelow : nonce < highest)
    (hinside : highest - nonce ≤ window.size) :
    Represents { window with
      bits := setBit window.bits (highest - nonce - 1) }
      (seen ++ [nonce]) where
  size_eq := by simpa using hrep.size_eq
  words_pos := by simpa using hrep.words_pos
  fresh := by simp [htop]
  tracks := by
    intro top hsome
    have hsame : top = highest := by
      dsimp only at hsome
      rw [htop, Option.some.injEq] at hsome
      exact hsome.symm
    subst hsame
    apply (hrep.tracks top htop).mark (Nat.le_of_lt hbelow)
    intro distance _
    have hstored : top - nonce - 1 < 64 * window.bits.length := by
      have hsize := hrep.size_eq
      omega
    by_cases hzero : distance = 0
    · simp [hzero, distanceBit]
    · have hindex : distance - 1 = top - nonce - 1 ↔
          distance = top - nonce := by omega
      simp [distanceBit, hzero, bitAt_setBit _ _ _ hstored, hindex]

theorem checkAndInsert_of_above {window : ReplayWindow}
    {highest nonce : Nat} (htop : window.highest = some highest)
    (habove : highest < nonce) :
    window.checkAndInsert nonce =
      (true, { window with
        highest := some nonce,
        bits := window.advanceBits (nonce - highest) }) := by
  simp [checkAndInsert, htop, habove]

/-- At or below the highest nonce the three refusals of the source are one
question: is the distance inside the window and its bit still clear? -/
theorem checkAndInsert_of_not_above {window : ReplayWindow}
    {highest nonce : Nat} (htop : window.highest = some highest)
    (hnot : ¬ highest < nonce) :
    window.checkAndInsert nonce =
      if highest - nonce ≤ window.size ∧
          distanceBit window.bits (highest - nonce) = false then
        (true, { window with
          bits := setBit window.bits (highest - nonce - 1) })
      else (false, window) := by
  simp only [checkAndInsert, htop, if_neg hnot]
  by_cases hzero : highest - nonce = 0
  · rw [if_pos (Or.inl hzero), if_neg]
    simp [distanceBit, hzero]
  · by_cases hfar : window.size < highest - nonce
    · rw [if_pos (Or.inr hfar), if_neg (by omega)]
    · have hbit : distanceBit window.bits (highest - nonce) = true ↔
          window.bits.getD ((highest - nonce - 1) / 64) 0 &&&
            (1#64 <<< ((highest - nonce - 1) % 64)) ≠ 0 := by
        rw [and_one_shiftLeft_ne_zero_iff _ _ (Nat.mod_lt _ (by decide))]
        simp [distanceBit, hzero, bitAt]
      rw [if_neg (by omega)]
      by_cases hseen : distanceBit window.bits (highest - nonce) = true
      · rw [if_pos (hbit.mp hseen), if_neg (by simp [hseen])]
      · rw [if_neg (fun hset => hseen (hbit.mpr hset)),
          if_pos ⟨Nat.le_of_not_lt hfar, by simpa using hseen⟩]

/-- One call of the bitmap window is one call of the abstract window whose
width counts the highest nonce as well. -/
theorem checkAndInsert_simulates {window : ReplayWindow} {seen : List Nat}
    (hrep : Represents window seen) (nonce : Nat) :
    (window.checkAndInsert nonce).1 =
        (SlidingWindow.insert (window.size + 1) seen nonce).1 ∧
      Represents (window.checkAndInsert nonce).2
        (SlidingWindow.insert (window.size + 1) seen nonce).2 ∧
      (window.checkAndInsert nonce).2.size = window.size := by
  cases htop : window.highest with
  | none =>
      obtain ⟨hseen, hclear⟩ := hrep.fresh htop
      subst hseen
      have hcall : window.checkAndInsert nonce =
          (true, { window with highest := some nonce }) := by
        simp [checkAndInsert, htop]
      rw [hcall, SlidingWindow.insert, if_pos (admissible_nil _ _)]
      refine ⟨rfl, ⟨hrep.size_eq, hrep.words_pos, by simp, ?_⟩, rfl⟩
      intro highest hsome
      rw [Option.some.injEq] at hsome
      subst hsome
      apply tracks_first
      intro distance _
      simp [distanceBit, hclear]
  | some highest =>
      have hiff := (hrep.tracks highest htop).admissible_iff nonce
      by_cases habove : highest < nonce
      · rw [checkAndInsert_of_above htop habove, SlidingWindow.insert,
          if_pos (hiff.mpr (Or.inl habove))]
        exact ⟨rfl, hrep.advance htop habove, rfl⟩
      · rw [checkAndInsert_of_not_above htop habove, SlidingWindow.insert]
        by_cases hopen : highest - nonce ≤ window.size ∧
            distanceBit window.bits (highest - nonce) = false
        · have hlt : nonce < highest := by
            by_contra hge
            have hzero : highest - nonce = 0 := by omega
            simp [distanceBit, hzero] at hopen
          have hadmissible : Admissible (window.size + 1) seen nonce :=
            hiff.mpr (Or.inr ⟨Nat.lt_succ_of_le hopen.1, hopen.2⟩)
          rw [if_pos hopen, if_pos hadmissible]
          exact ⟨rfl, hrep.mark htop hlt hopen.1, rfl⟩
        · have hnot : ¬ Admissible (window.size + 1) seen nonce := by
            rw [hiff]
            rintro (hlt | ⟨hinside, hclear⟩)
            · exact habove hlt
            · exact hopen ⟨Nat.le_of_lt_succ hinside, hclear⟩
          rw [if_neg hopen, if_neg hnot]
          exact ⟨rfl, hrep, rfl⟩

/-- The nonces accepted along a run from a new window. -/
def acceptedNonces (size : Nat) (nonces : List Nat) : List Nat :=
  admitted (trace checkAndInsert (new size) nonces)

/-- What every run preserves: the window represents the accepted nonces, its
width never changes, and no nonce was accepted twice. -/
theorem run_represents (size : Nat) (nonces : List Nat) :
    Represents (final checkAndInsert (new size) nonces)
        (acceptedNonces size nonces) ∧
      (final checkAndInsert (new size) nonces).size = (new size).size ∧
      (acceptedNonces size nonces).Nodup := by
  apply history_invariant (P := fun history window =>
    Represents window (admitted history) ∧
      window.size = (new size).size ∧ (admitted history).Nodup)
  · exact ⟨new_represents size, rfl, List.nodup_nil⟩
  · rintro history window nonce ⟨hrep, hsize, hnodup⟩
    obtain ⟨hanswer, hnext, hkeep⟩ := checkAndInsert_simulates hrep nonce
    rw [admitted_snoc, hanswer]
    unfold SlidingWindow.insert at hnext ⊢
    by_cases hadmissible :
        Admissible (window.size + 1) (admitted history) nonce
    · rw [if_pos hadmissible] at hnext ⊢
      exact ⟨hnext, hkeep.trans hsize,
        nodup_snoc_of_admissible hnodup hadmissible⟩
    · rw [if_neg hadmissible] at hnext ⊢
      simpa using ⟨hnext, hkeep.trans hsize, hnodup⟩

/-- Acceptance is exact over every run: a nonce is accepted if and only if it
was not accepted before and is above, or at most the window width below, the
highest accepted nonce.  In particular no nonce is accepted twice. -/
theorem checkAndInsert_accepts_iff (size : Nat) (prior : List Nat)
    (nonce : Nat) :
    (((final checkAndInsert (new size) prior).checkAndInsert nonce).1 = true ↔
      nonce ∉ acceptedNonces size prior ∧
        (acceptedNonces size prior = [] ∨
          ∃ highest, (acceptedNonces size prior).max? = some highest ∧
            (highest < nonce ∨ highest - nonce ≤ (new size).size))) ∧
      (acceptedNonces size prior).Nodup := by
  obtain ⟨hrep, hsize, hnodup⟩ := run_represents size prior
  refine ⟨?_, hnodup⟩
  rw [(checkAndInsert_simulates hrep nonce).1, hsize, SlidingWindow.insert,
    ← admissible_succ_iff_max]
  split
  · simpa
  · simpa

end ReplayWindow

end Shph
