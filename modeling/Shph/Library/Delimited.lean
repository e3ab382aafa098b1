/-
Texts that are cut at a delimiter: when the place of the cut is determined,
and what the first and the last cut of a text are.
-/
import Mathlib

namespace Delimited

universe u

variable {α : Type u}

/-- A front is shorter than another one by less than the stretch without a
delimiter at the end of that one only if the two are equally long. -/
theorem length_le_of_append_eq {delimiter : α} {width : Nat}
    {front front' rest rest' : List α}
    (heq : front ++ delimiter :: rest = front' ++ delimiter :: rest')
    (hfree : delimiter ∉ front'.drop (front'.length - width))
    (hclose : front'.length ≤ front.length + width) :
    front'.length ≤ front.length := by
  by_contra hlonger
  apply hfree
  have hinside : front.length < front'.length := by omega
  have hcut : front'[front.length]? = some delimiter := by
    rw [← List.getElem?_append_left hinside, ← heq,
      List.getElem?_append_right (Nat.le_refl _), Nat.sub_self]
    rfl
  apply List.mem_of_getElem? (i := front.length - (front'.length - width))
  rw [List.getElem?_drop, Nat.add_sub_cancel' (by omega)]
  exact hcut

/-- Fronts whose last elements are no delimiters, and whose lengths differ by
at most as many, are determined by what is written behind them. -/
theorem append_delimiter_inj {delimiter : α} {width : Nat}
    {front front' rest rest' : List α}
    (heq : front ++ delimiter :: rest = front' ++ delimiter :: rest')
    (hfree : delimiter ∉ front.drop (front.length - width))
    (hfree' : delimiter ∉ front'.drop (front'.length - width))
    (hclose : front.length ≤ front'.length + width)
    (hclose' : front'.length ≤ front.length + width) :
    front = front' ∧ rest = rest' := by
  have hle := length_le_of_append_eq heq hfree' hclose'
  have hge := length_le_of_append_eq heq.symm hfree hclose
  obtain ⟨hfront, hrest⟩ :=
    List.append_inj heq (Nat.le_antisymm hge hle)
  exact ⟨hfront, (List.cons.inj hrest).2⟩

section Cut

variable [DecidableEq α]

/-- The parts of a text before and after the first place where a pattern that
is not empty occurs. -/
def cutFirst (pattern : List α) : List α → Option (List α × List α)
  | [] => none
  | item :: rest =>
      if pattern <+: item :: rest then
        some ([], (item :: rest).drop pattern.length)
      else (cutFirst pattern rest).map fun parts => (item :: parts.1, parts.2)

/-- The parts of a text before and after the last delimiter. -/
def cutLast (delimiter : α) : List α → Option (List α × List α)
  | [] => none
  | item :: rest =>
      match cutLast delimiter rest with
      | some (front, back) => some (item :: front, back)
      | none => if item = delimiter then some ([], rest) else none

variable {a b : α} {text front back : List α}

theorem eq_of_cutFirst (hcut : cutFirst [a, b] text = some (front, back)) :
    text = front ++ a :: b :: back ∧ ¬ [a, b] <:+: front := by
  induction text generalizing front with
  | nil => cases hcut
  | cons item rest ih =>
      rw [cutFirst] at hcut
      split_ifs at hcut with hhere
      · obtain ⟨hfront, hback⟩ := Prod.mk.inj (Option.some.inj hcut)
        obtain ⟨behind, hbehind⟩ := hhere
        rw [← hbehind] at hback ⊢
        rw [← hfront, ← hback]
        exact ⟨rfl, by simp⟩
      · obtain ⟨⟨front', back'⟩, hrest, hparts⟩ := Option.map_eq_some_iff.mp hcut
        obtain ⟨rfl, rfl⟩ := Prod.mk.inj hparts
        obtain ⟨hsplit, hfree⟩ := ih hrest
        refine ⟨by rw [hsplit]; rfl, ?_⟩
        rw [List.infix_cons_iff]
        rintro (hfirst | hinside)
        · apply hhere
          rw [hsplit]
          exact hfirst.trans (List.prefix_append (item :: front') _)
        · exact hfree hinside

theorem cutFirst_append (hne : a ≠ b) (hfree : ¬ [a, b] <:+: front) :
    cutFirst [a, b] (front ++ a :: b :: back) = some (front, back) := by
  induction front with
  | nil =>
      rw [List.nil_append, cutFirst, if_pos ⟨back, rfl⟩]
      rfl
  | cons item rest ih =>
      have hinside : ¬ [a, b] <:+: rest :=
        fun hinside => hfree (List.infix_cons hinside)
      have hhere : ¬ [a, b] <+: item :: (rest ++ a :: b :: back) := by
        rw [List.cons_prefix_cons]
        rintro ⟨rfl, hnext⟩
        cases rest with
        | nil => exact hne (List.cons_prefix_cons.mp hnext).1.symm
        | cons next rest =>
            obtain ⟨rfl, -⟩ := List.cons_prefix_cons.mp hnext
            exact hfree ⟨[], rest, rfl⟩
      rw [List.cons_append, cutFirst, if_neg hhere, ih hinside]
      rfl

/-- A text in which a pattern occurs has a first place where it does. -/
theorem exists_first_of_infix (hinside : [a, b] <:+: text) :
    ∃ front back, text = front ++ a :: b :: back ∧ ¬ [a, b] <:+: front := by
  induction text with
  | nil => exact absurd hinside (by simp)
  | cons item rest ih =>
      by_cases hhere : [a, b] <+: item :: rest
      · obtain ⟨back, hback⟩ := hhere
        exact ⟨[], back, hback.symm, by simp⟩
      · have hinside := (List.infix_cons_iff.mp hinside).resolve_left hhere
        obtain ⟨front, back, hrest, hfree⟩ := ih hinside
        refine ⟨item :: front, back, by rw [hrest]; rfl, ?_⟩
        rw [List.infix_cons_iff]
        rintro (hfirst | hlater)
        · apply hhere
          rw [hrest]
          exact hfirst.trans (List.prefix_append (item :: front) _)
        · exact hfree hlater

theorem cutLast_eq_none (hcut : cutLast a text = none) : a ∉ text := by
  induction text with
  | nil => exact List.not_mem_nil
  | cons item rest ih =>
      rw [cutLast] at hcut
      split at hcut
      · cases hcut
      · rename_i hrest
        split_ifs at hcut with hitem
        rw [List.mem_cons, not_or]
        exact ⟨fun heq => hitem heq.symm, ih hrest⟩

theorem eq_of_cutLast (hcut : cutLast a text = some (front, back)) :
    text = front ++ a :: back ∧ a ∉ back := by
  induction text generalizing front with
  | nil => cases hcut
  | cons item rest ih =>
      rw [cutLast] at hcut
      split at hcut
      · rename_i front' back' hrest
        obtain ⟨rfl, rfl⟩ := Prod.mk.inj (Option.some.inj hcut)
        obtain ⟨hsplit, hfree⟩ := ih hrest
        exact ⟨by rw [hsplit]; rfl, hfree⟩
      · rename_i hrest
        split_ifs at hcut with hitem
        obtain ⟨rfl, rfl⟩ := Prod.mk.inj (Option.some.inj hcut)
        exact ⟨by rw [hitem]; rfl, cutLast_eq_none hrest⟩

theorem cutLast_of_notMem (hfree : a ∉ text) : cutLast a text = none := by
  cases hcut : cutLast a text with
  | none => rfl
  | some parts =>
      obtain ⟨front, back⟩ := parts
      apply absurd _ hfree
      rw [(eq_of_cutLast hcut).1]
      simp

theorem cutLast_append (hfree : a ∉ back) :
    cutLast a (front ++ a :: back) = some (front, back) := by
  induction front with
  | nil => rw [List.nil_append, cutLast, cutLast_of_notMem hfree, if_pos rfl]
  | cons item rest ih => rw [List.cons_append, cutLast, ih]

end Cut

end Delimited
