/-
A window of the most recent items kept in a ring of fixed size.  The next item
is written over the oldest one, so that the slots in use hold the most recent
items, in the order of the slots and not of their arrival.
-/
import Mathlib

namespace RingWindow

universe u

variable {α : Type u}

/-- The slots in the order in which they were written, oldest first. -/
def unrolled (slots : List α) (next : Nat) : List α :=
  slots.drop next ++ slots.take next

/-- A ring after the items were pushed in order. -/
structure Holds (capacity : Nat) (slots : List α) (len next : Nat)
    (items : List α) : Prop where
  slots_length : slots.length = capacity
  len_eq : len = min items.length capacity
  next_eq : next = items.length % capacity
  recent : (unrolled slots next).rtake len = items.rtake capacity

theorem rtake_of_length_le {items : List α} {count : Nat}
    (hcount : items.length ≤ count) : items.rtake count = items := by
  rw [List.rtake, Nat.sub_eq_zero_of_le hcount, List.drop_zero]

theorem rtake_rtake_of_le {items : List α} {less more : Nat}
    (hle : less ≤ more) : (items.rtake more).rtake less = items.rtake less := by
  rw [List.rtake, List.rtake, List.rtake, List.length_drop, List.drop_drop]
  congr 1
  omega

theorem tail_rtake {items : List α} {count : Nat}
    (hcount : count < items.length) : items.tail.rtake count =
      items.rtake count := by
  rw [List.rtake, List.rtake, List.length_tail, ← List.drop_one,
    List.drop_drop]
  congr 1
  omega

theorem unrolled_length {slots : List α} {next : Nat} :
    (unrolled slots next).length = slots.length := by
  simp only [unrolled, List.length_append, List.length_drop, List.length_take]
  omega

/-- A write drops the oldest item and adds the newest. -/
theorem unrolled_set {slots : List α} {next : Nat} (hnext : next < slots.length)
    (item : α) :
    unrolled (slots.set next item) ((next + 1) % slots.length) =
      (unrolled slots next).tail ++ [item] := by
  have htake : (slots.set next item).take (next + 1) =
      slots.take next ++ [item] := by
    rw [List.take_succ_eq_append_getElem (by simpa using hnext)]
    simp [List.take_set_of_le]
  have hdrop : (slots.set next item).drop (next + 1) =
      (slots.drop next).tail := by
    rw [List.drop_set_of_lt (Nat.lt_succ_self next), List.tail_drop]
  have htail : (unrolled slots next).tail =
      (slots.drop next).tail ++ slots.take next := by
    rw [unrolled, List.tail_append_of_ne_nil]
    simpa using hnext
  rcases Nat.lt_or_ge (next + 1) slots.length with hless | hlast
  · rw [Nat.mod_eq_of_lt hless, unrolled, hdrop, htake, htail,
      List.append_assoc]
  · -- The last slot: the write order starts over at the front.
    have hwrap : next + 1 = slots.length := by omega
    have hall : slots.set next item = slots.take next ++ [item] := by
      rw [← htake, hwrap, List.take_of_length_le (by simp)]
    have hnil : (slots.drop next).tail = [] := by
      rw [List.tail_drop, hwrap, List.drop_length]
    rw [hwrap, Nat.mod_self, htail, hnil, List.nil_append, ← hall, unrolled,
      List.drop_zero, List.take_zero, List.append_nil]

theorem Holds.next_lt {capacity len next : Nat} {slots items : List α}
    (hholds : Holds capacity slots len next items) (hcapacity : 0 < capacity) :
    next < capacity :=
  hholds.next_eq ▸ Nat.mod_lt _ hcapacity

theorem Holds.push {capacity len next : Nat} {slots items : List α}
    (hholds : Holds capacity slots len next items) (hcapacity : 0 < capacity)
    (item : α) :
    Holds capacity (slots.set next item) (min (len + 1) capacity)
      ((next + 1) % capacity) (items ++ [item]) where
  slots_length := by rw [List.length_set, hholds.slots_length]
  len_eq := by
    rw [hholds.len_eq, List.length_append, List.length_singleton]
    omega
  next_eq := by
    rw [hholds.next_eq, List.length_append, List.length_singleton,
      Nat.mod_add_mod]
  recent := by
    obtain ⟨before, rfl⟩ : ∃ before, capacity = before + 1 :=
      ⟨capacity - 1, by omega⟩
    have hslots := hholds.slots_length
    have hlen := hholds.len_eq
    have hnext : next < slots.length := hslots ▸ hholds.next_lt hcapacity
    have hunrolled := unrolled_set hnext item
    rw [hslots] at hunrolled
    have hcount : min len before < (unrolled slots next).length := by
      rw [unrolled_length, hslots]
      omega
    have hfront : (unrolled slots next).tail.rtake (min len before) =
        items.rtake before :=
      calc (unrolled slots next).tail.rtake (min len before)
          = ((unrolled slots next).rtake len).rtake (min len before) := by
            rw [tail_rtake hcount, rtake_rtake_of_le (Nat.min_le_left _ _)]
        _ = items.rtake (min len before) := by
            rw [hholds.recent, rtake_rtake_of_le (by omega)]
        _ = items.rtake before := by
            rw [List.rtake, List.rtake]
            congr 1
            omega
    rw [hunrolled, show min (len + 1) (before + 1) = min len before + 1 by
      omega, List.rtake_concat_succ, List.rtake_concat_succ, hfront]

/-- The slots in use are the most recent items, up to their order. -/
theorem Holds.take_perm {capacity len next : Nat} {slots items : List α}
    (hholds : Holds capacity slots len next items) :
    (slots.take len).Perm (items.rtake capacity) := by
  have hslots := hholds.slots_length
  have hlen := hholds.len_eq
  have hnext := hholds.next_eq
  rw [← hholds.recent]
  rcases Nat.lt_or_ge items.length capacity with hfew | hmany
  · -- The ring has not gone round: its front part is the items.
    have hsame : next = len := by
      rw [hnext, hlen, Nat.mod_eq_of_lt hfew]
      omega
    have hcut : (unrolled slots len).rtake len = slots.take len := by
      rw [List.rtake, unrolled_length, unrolled, List.drop_append,
        List.length_drop, Nat.sub_self, List.drop_zero,
        List.drop_of_length_le (by rw [List.length_drop]), List.nil_append]
    rw [hsame, hcut]
  · have hfull : len = slots.length := by omega
    rw [hfull, List.take_length,
      rtake_of_length_le (Nat.le_of_eq unrolled_length), unrolled]
    exact (List.perm_append_comm.trans
      (List.Perm.of_eq (List.take_append_drop next slots))).symm

end RingWindow
