/-
The abstract anti-replay window.  Its state is the list of numbers accepted
so far; a number is admissible when it is fresh and less than `width` below
everything accepted.  `Tracks` says when a bit set indexed by the distance
below the highest accepted number carries the same information.
-/
import Mathlib

namespace SlidingWindow

/-- A number may be accepted when it is fresh and no accepted number is
`width` or more above it. -/
def Admissible (width : Nat) (seen : List Nat) (number : Nat) : Prop :=
  number ∉ seen ∧ ∀ old ∈ seen, old < number + width

instance (width : Nat) (seen : List Nat) (number : Nat) :
    Decidable (Admissible width seen number) :=
  inferInstanceAs (Decidable (_ ∧ _))

/-- One call of the abstract window. -/
def insert (width : Nat) (seen : List Nat) (number : Nat) :
    Bool × List Nat :=
  if Admissible width seen number then (true, seen ++ [number])
  else (false, seen)

theorem admissible_nil (width number : Nat) :
    Admissible width [] number := by
  simp [Admissible]

/-- Admissibility in terms of the highest accepted number. -/
theorem admissible_succ_iff_max (width : Nat) (seen : List Nat)
    (number : Nat) :
    Admissible (width + 1) seen number ↔
      number ∉ seen ∧
        (seen = [] ∨ ∃ highest, seen.max? = some highest ∧
          (highest < number ∨ highest - number ≤ width)) := by
  cases hmax : seen.max? with
  | none =>
      rw [List.max?_eq_none_iff] at hmax
      subst hmax
      simp [Admissible]
  | some highest =>
      obtain ⟨hmem, hle⟩ := List.max?_eq_some_iff.mp hmax
      have hne : seen ≠ [] := List.ne_nil_of_mem hmem
      simp only [Admissible, hne, Option.some.injEq, false_or,
        exists_eq_left']
      refine and_congr_right fun _ => ⟨fun hclose => ?_, fun hclose => ?_⟩
      · have htop := hclose highest hmem
        omega
      · intro old hold
        have hold := hle old hold
        omega

/-- Freshness is part of admissibility, so accepting keeps the history free
of repetitions. -/
theorem nodup_snoc_of_admissible {width : Nat} {seen : List Nat}
    {number : Nat} (hnodup : seen.Nodup)
    (hadmissible : Admissible width seen number) :
    (seen ++ [number]).Nodup := by
  rw [List.nodup_append']
  refine ⟨hnodup, List.nodup_singleton number, ?_⟩
  intro old hold hnew
  rw [List.mem_singleton] at hnew
  subst old
  exact hadmissible.1 hold

/-- `bit d` answers whether `highest - d` has been accepted, for every
distance inside the window. -/
structure Tracks (bit : Nat → Bool) (width highest : Nat)
    (seen : List Nat) : Prop where
  top_mem : highest ∈ seen
  le_top : ∀ old ∈ seen, old ≤ highest
  bit_iff : ∀ distance < width,
    bit distance = true ↔ distance ≤ highest ∧ highest - distance ∈ seen

/-- The bit set decides admissibility. -/
theorem Tracks.admissible_iff {bit : Nat → Bool} {width highest : Nat}
    {seen : List Nat} (htracks : Tracks bit width highest seen)
    (number : Nat) :
    Admissible width seen number ↔
      highest < number ∨
        (highest - number < width ∧ bit (highest - number) = false) := by
  constructor
  · rintro ⟨hfresh, hclose⟩
    by_cases habove : highest < number
    · exact Or.inl habove
    · have hdistance : highest - number < width := by
        have htop := hclose highest htracks.top_mem
        have hpos : number ≠ highest := by
          intro heq
          exact hfresh (heq ▸ htracks.top_mem)
        omega
      refine Or.inr ⟨hdistance, ?_⟩
      rw [← Bool.not_eq_true, htracks.bit_iff _ hdistance]
      rintro ⟨_, hmem⟩
      rw [Nat.sub_sub_self (Nat.le_of_not_lt habove)] at hmem
      exact hfresh hmem
  · rintro (habove | ⟨hdistance, hbit⟩)
    · refine ⟨fun hmem => ?_, fun old hold => ?_⟩
      · exact absurd (htracks.le_top number hmem) (Nat.not_le_of_lt habove)
      · have hle := htracks.le_top old hold
        omega
    · refine ⟨fun hmem => ?_, fun old hold => ?_⟩
      · have hle := htracks.le_top number hmem
        have hset : bit (highest - number) = true := by
          rw [htracks.bit_iff _ hdistance, Nat.sub_sub_self hle]
          exact ⟨Nat.sub_le _ _, hmem⟩
        rw [hbit] at hset
        exact Bool.false_ne_true hset
      · have hle := htracks.le_top old hold
        omega

/-- The bit set after the very first acceptance. -/
theorem tracks_first {bit : Nat → Bool} {width number : Nat}
    (hbit : ∀ distance < width, bit distance = true ↔ distance = 0) :
    Tracks bit width number [number] where
  top_mem := List.mem_singleton_self number
  le_top := by
    intro old hold
    rw [List.mem_singleton] at hold
    exact Nat.le_of_eq hold
  bit_iff := by
    intro distance hdistance
    rw [hbit distance hdistance, List.mem_singleton]
    omega

/-- Accepting a number above the window shifts every tracked distance by the
gap and records the new top. -/
theorem Tracks.advance {bit next : Nat → Bool} {width highest number : Nat}
    {seen : List Nat} (htracks : Tracks bit width highest seen)
    (habove : highest < number)
    (hnext : ∀ distance < width, next distance = true ↔
      distance = 0 ∨
        (number - highest ≤ distance ∧
          bit (distance - (number - highest)) = true)) :
    Tracks next width number (seen ++ [number]) where
  top_mem := by simp
  le_top := by
    intro old hold
    rw [List.mem_append, List.mem_singleton] at hold
    rcases hold with hold | rfl
    · exact Nat.le_of_lt (Nat.lt_of_le_of_lt (htracks.le_top old hold) habove)
    · exact Nat.le_refl old
  bit_iff := by
    intro distance hdistance
    rw [hnext distance hdistance, List.mem_append, List.mem_singleton]
    constructor
    · rintro (rfl | ⟨hgap, hbit⟩)
      · simp
      · have hold := (htracks.bit_iff _ (by omega)).mp hbit
        have hsame : highest - (distance - (number - highest)) =
            number - distance := by omega
        rw [hsame] at hold
        exact ⟨by omega, Or.inl hold.2⟩
    · rintro ⟨hle, hmem | htop⟩
      · have hbelow := htracks.le_top _ hmem
        refine Or.inr ⟨by omega, ?_⟩
        rw [htracks.bit_iff _ (by omega)]
        refine ⟨by omega, ?_⟩
        have hsame : highest - (distance - (number - highest)) =
            number - distance := by omega
        rw [hsame]
        exact hmem
      · exact Or.inl (by omega)

/-- Accepting a number inside the window sets the bit at its distance. -/
theorem Tracks.mark {bit next : Nat → Bool} {width highest number : Nat}
    {seen : List Nat} (htracks : Tracks bit width highest seen)
    (hbelow : number ≤ highest)
    (hnext : ∀ distance < width, next distance = true ↔
      bit distance = true ∨ distance = highest - number) :
    Tracks next width highest (seen ++ [number]) where
  top_mem := List.mem_append.mpr (Or.inl htracks.top_mem)
  le_top := by
    intro old hold
    rw [List.mem_append, List.mem_singleton] at hold
    rcases hold with hold | rfl
    · exact htracks.le_top old hold
    · exact hbelow
  bit_iff := by
    intro distance hdistance
    rw [hnext distance hdistance, htracks.bit_iff distance hdistance,
      List.mem_append, List.mem_singleton]
    constructor
    · rintro (⟨hle, hold⟩ | hnew)
      · exact ⟨hle, Or.inl hold⟩
      · exact ⟨by omega, Or.inr (by omega)⟩
    · rintro ⟨hle, hold | hnew⟩
      · exact Or.inl ⟨hle, hold⟩
      · exact Or.inr (by omega)

end SlidingWindow
