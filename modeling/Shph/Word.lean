/-
The checked, saturating and wrapping operations of 64-bit words, on natural
numbers.  A `usize` is a 64-bit word as well.
-/
import Mathlib

namespace Shph

def u64Max : Nat := 2 ^ 64 - 1

def checkedAdd (left right : Nat) : Option Nat :=
  if left + right ≤ u64Max then some (left + right) else none

def checkedSub (left right : Nat) : Option Nat :=
  if right ≤ left then some (left - right) else none

def checkedMul (left right : Nat) : Option Nat :=
  if left * right ≤ u64Max then some (left * right) else none

def saturatingAdd (left right : Nat) : Nat := min (left + right) u64Max

def saturatingMul (left right : Nat) : Nat := min (left * right) u64Max

def wrappingSub (left right : Nat) : Nat := (left + 2 ^ 64 - right) % 2 ^ 64

theorem checkedAdd_eq_some_iff {left right sum : Nat} :
    checkedAdd left right = some sum ↔ left + right ≤ u64Max ∧
      sum = left + right := by
  unfold checkedAdd
  split
  · rename_i hle
    simp [hle, eq_comm]
  · rename_i hle
    simp [hle]

theorem wrappingSub_of_le {left right : Nat} (hle : right ≤ left)
    (hleft : left < 2 ^ 64) : wrappingSub left right = left - right := by
  unfold wrappingSub
  omega

end Shph
