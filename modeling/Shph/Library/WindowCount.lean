/-
Counting events in consecutive windows of time.  A counter keeps the latest
window and the number of its events packed into one number; the events of a
span of windows are at most as many as the limit allows for each of them.
-/
import Mathlib

namespace WindowCount

/-- A packed word that counts the events of the latest window, when no window
has more events than the limit. -/
structure Tracks (bits limit word : Nat) (stamps : List Nat) : Prop where
  current : stamps.count (word / 2 ^ bits) = word % 2 ^ bits
  latest : ∀ stamp ∈ stamps, stamp ≤ word / 2 ^ bits
  bounded : ∀ stamp, stamps.count stamp ≤ limit

variable {bits limit word : Nat} {stamps : List Nat}

theorem tracks_zero (bits limit : Nat) : Tracks bits limit 0 [] := by
  constructor <;> simp

theorem count_snoc (stamps : List Nat) (stamp other : Nat) :
    (stamps ++ [stamp]).count other =
      stamps.count other + if stamp = other then 1 else 0 := by
  rw [List.count_append, List.count_singleton]
  by_cases heq : stamp = other <;> simp [heq]

/-- The first event of a later window. -/
theorem Tracks.advance (htracks : Tracks bits limit word stamps)
    {window : Nat} (hlater : word / 2 ^ bits < window) (hbits : 0 < bits)
    (hlimit : 0 < limit) :
    Tracks bits limit (window * 2 ^ bits + 1) (stamps ++ [window]) := by
  have hone : 1 < 2 ^ bits := Nat.one_lt_two_pow (Nat.ne_of_gt hbits)
  have hwindow : (window * 2 ^ bits + 1) / 2 ^ bits = window := by
    rw [Nat.mul_comm, Nat.mul_add_div (by omega), Nat.div_eq_of_lt hone,
      Nat.add_zero]
  have hcount : (window * 2 ^ bits + 1) % 2 ^ bits = 1 := by
    rw [Nat.mul_comm, Nat.mul_add_mod, Nat.mod_eq_of_lt hone]
  have hnew : stamps.count window = 0 := by
    rw [List.count_eq_zero]
    intro hmem
    exact Nat.not_lt.mpr (htracks.latest window hmem) hlater
  constructor
  · rw [hwindow, hcount, count_snoc, hnew, if_pos rfl]
  · intro stamp hstamp
    rw [hwindow]
    rw [List.mem_append, List.mem_singleton] at hstamp
    rcases hstamp with hold | rfl
    · exact Nat.le_of_lt (Nat.lt_of_le_of_lt (htracks.latest stamp hold)
        hlater)
    · exact Nat.le_refl _
  · intro stamp
    rw [count_snoc]
    split
    · rename_i heq
      rw [← heq, hnew]
      exact hlimit
    · exact htracks.bounded stamp

/-- One more event of the latest window. -/
theorem Tracks.again (htracks : Tracks bits limit word stamps)
    (hroom : word % 2 ^ bits < limit) (hfits : limit < 2 ^ bits) :
    Tracks bits limit (word + 1) (stamps ++ [word / 2 ^ bits]) := by
  have hsplit := Nat.div_add_mod word (2 ^ bits)
  have hsum : word + 1 =
      2 ^ bits * (word / 2 ^ bits) + (word % 2 ^ bits + 1) := by
    omega
  have hlow : word % 2 ^ bits + 1 < 2 ^ bits := by
    omega
  have hwindow : (word + 1) / 2 ^ bits = word / 2 ^ bits := by
    rw [hsum, Nat.mul_add_div (by omega), Nat.div_eq_of_lt hlow, Nat.add_zero]
  have hcount : (word + 1) % 2 ^ bits = word % 2 ^ bits + 1 := by
    rw [hsum, Nat.mul_add_mod, Nat.mod_eq_of_lt hlow]
  constructor
  · rw [hwindow, hcount, count_snoc, if_pos rfl, htracks.current]
  · intro stamp hstamp
    rw [hwindow]
    rw [List.mem_append, List.mem_singleton] at hstamp
    rcases hstamp with hold | rfl
    · exact htracks.latest stamp hold
    · exact Nat.le_refl _
  · intro stamp
    rw [count_snoc]
    split
    · rename_i heq
      rw [← heq, htracks.current]
      exact hroom
    · exact htracks.bounded stamp

/-- The events of the last `span` windows. -/
theorem countP_recent_le (hbounded : ∀ stamp, stamps.count stamp ≤ limit)
    (last span : Nat) :
    stamps.countP (fun stamp => stamp ≤ last ∧ last < stamp + span) ≤
      span * limit := by
  induction span with
  | zero =>
      rw [Nat.zero_mul, Nat.le_zero, List.countP_eq_zero]
      intro stamp _ hrecent
      rw [decide_eq_true_eq] at hrecent
      omega
  | succ span ih =>
      have hsplit : stamps.countP (fun stamp =>
          stamp ≤ last ∧ last < stamp + (span + 1)) ≤
            stamps.countP (fun stamp => stamp ≤ last ∧ last < stamp + span) +
              stamps.count (last - span) := by
        clear ih
        induction stamps with
        | nil => simp
        | cons stamp stamps ih =>
            have hrest := ih fun other => Nat.le_trans
              (List.count_le_count_cons) (hbounded other)
            simp only [List.countP_cons, List.count_cons, beq_iff_eq,
              decide_eq_true_eq]
            split <;> split <;> split <;> omega
      calc _ ≤ _ := hsplit
        _ ≤ span * limit + limit := Nat.add_le_add ih (hbounded _)
        _ = (span + 1) * limit := (Nat.succ_mul span limit).symm

end WindowCount
