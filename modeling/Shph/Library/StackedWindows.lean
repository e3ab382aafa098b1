/-
Two anti-replay windows, one behind the other.  A message has a number at each
of them.  Of two messages the later one is ahead at both, and at least as far
at the inner window; then an outer window that is no narrower never refuses
what the inner one would let through.
-/
import Shph.Library.SlidingWindow

namespace SlidingWindow

universe u

section Stacked

variable {M : Type u} (outer inner : M → Nat)

/-- The later of two messages is at least as far ahead in its inner number. -/
def Before (first second : M) : Prop :=
  outer first < outer second ∧
    outer second + inner first ≤ inner second + outer first

variable {outer inner} {width : Nat} {log taken : List M}

theorem before_trichotomy (hordered : log.Pairwise (Before outer inner))
    {first second : M} (hfirst : first ∈ log) (hsecond : second ∈ log) :
    first = second ∨ Before outer inner first second ∨
      Before outer inner second first := by
  have hsymm : Std.Symm fun left right : M => left = right ∨
      Before outer inner left right ∨ Before outer inner right left := by
    refine ⟨fun left right hrelated => ?_⟩
    rcases hrelated with heq | hbefore | hbefore
    · exact Or.inl heq.symm
    · exact Or.inr (Or.inr hbefore)
    · exact Or.inr (Or.inl hbefore)
  have hpairs : log.Pairwise fun left right : M => left = right ∨
      Before outer inner left right ∨ Before outer inner right left :=
    hordered.imp fun hbefore => Or.inr (Or.inl hbefore)
  have hself : ∀ message ∈ log, message = message ∨
      Before outer inner message message ∨
        Before outer inner message message := fun _ _ => Or.inl rfl
  exact List.Pairwise.forall_of_forall hself hpairs hfirst hsecond

theorem eq_of_outer (hordered : log.Pairwise (Before outer inner))
    {first second : M} (hfirst : first ∈ log) (hsecond : second ∈ log)
    (heq : outer first = outer second) : first = second := by
  rcases before_trichotomy hordered hfirst hsecond with
    hsame | hbefore | hbefore
  · exact hsame
  · exact absurd heq (Nat.ne_of_lt hbefore.1)
  · exact absurd heq.symm (Nat.ne_of_lt hbefore.1)

theorem eq_of_inner (hordered : log.Pairwise (Before outer inner))
    {first second : M} (hfirst : first ∈ log) (hsecond : second ∈ log)
    (heq : inner first = inner second) : first = second := by
  rcases before_trichotomy hordered hfirst hsecond with
    hsame | ⟨houter, hlead⟩ | ⟨houter, hlead⟩
  · exact hsame
  · omega
  · omega

variable (hordered : log.Pairwise (Before outer inner))
  (htaken : ∀ other ∈ taken, other ∈ log) {message : M}
  (hmem : message ∈ log) (hnew : message ∉ taken)

include hordered htaken hmem hnew

/-- When both windows have taken the same messages, a new one is admissible at
the inner window if none of them is too far ahead. -/
theorem inner_admissible_iff :
    Admissible width (taken.map inner) (inner message) ↔
      ∀ other ∈ taken, inner other < inner message + width := by
  rw [Admissible, List.forall_mem_map]
  refine and_iff_right fun hseen => ?_
  obtain ⟨other, hother, heq⟩ := List.mem_map.mp hseen
  obtain rfl := eq_of_inner hordered (htaken _ hother) hmem heq
  exact hnew hother

/-- What the inner window admits, a wider outer window admits as well. -/
theorem outer_admissible {wider : Nat} (hwider : width ≤ wider)
    (hadmissible : Admissible width (taken.map inner) (inner message)) :
    Admissible wider (taken.map outer) (outer message) := by
  have hnear := (inner_admissible_iff hordered htaken hmem hnew).mp hadmissible
  constructor
  · intro hpassed
    obtain ⟨other, hother, heq⟩ := List.mem_map.mp hpassed
    obtain rfl := eq_of_outer hordered (htaken _ hother) hmem heq
    exact hnew hother
  · rw [List.forall_mem_map]
    intro other hother
    have hclose := hnear other hother
    rcases before_trichotomy hordered (htaken _ hother) hmem with
      rfl | ⟨houter, -⟩ | ⟨-, hlead⟩
    · exact absurd hother hnew
    · omega
    · omega

end Stacked

end SlidingWindow
