/-
Finite tables with distinct keys, in the order in which the keys came.  What a
table holds is settled by membership, so every operation is described by the
entries it leaves.
-/
import Mathlib

universe u v

/-- A list of entries that has each key at most once. -/
structure KeyTable (K : Type u) (V : Type v) where
  entries : List (K × V)
  nodup : (entries.map Prod.fst).Nodup

namespace KeyTable

variable {K : Type u} {V : Type v} [DecidableEq K]

def empty : KeyTable K V := ⟨[], List.nodup_nil⟩

def size (table : KeyTable K V) : Nat := table.entries.length

def get (table : KeyTable K V) (key : K) : Option V := table.entries.lookup key

def contains (table : KeyTable K V) (key : K) : Bool :=
  (table.get key).isSome

/-- Remove a key and its value. -/
def erase (table : KeyTable K V) (key : K) : KeyTable K V where
  entries := table.entries.filter fun entry => entry.1 ≠ key
  nodup := table.nodup.sublist (List.filter_sublist.map Prod.fst)

/-- Change every value and keep those that pass a test. -/
def retain (table : KeyTable K V) (change : V → V) (keep : V → Bool) :
    KeyTable K V where
  entries := (table.entries.map fun entry => (entry.1, change entry.2)).filter
    fun entry => keep entry.2
  nodup := by
    have hkeys : (table.entries.map fun entry =>
        (entry.1, change entry.2)).map Prod.fst =
          table.entries.map Prod.fst := by
      rw [List.map_map]
      rfl
    have hnodup := table.nodup
    rw [← hkeys] at hnodup
    exact hnodup.sublist (List.filter_sublist.map Prod.fst)

/-- Give a key a value; a new key comes last. -/
def set (table : KeyTable K V) (key : K) (value : V) : KeyTable K V where
  entries :=
    if key ∈ table.entries.map Prod.fst then
      table.entries.map fun entry =>
        (entry.1, if entry.1 = key then value else entry.2)
    else table.entries ++ [(key, value)]
  nodup := by
    split
    · rw [List.map_map]
      exact table.nodup
    · rename_i hnew
      rw [List.map_append, List.nodup_append]
      refine ⟨table.nodup, List.nodup_singleton _, ?_⟩
      intro old hold last hlast heq
      rw [List.map_singleton, List.mem_singleton] at hlast
      rw [heq, hlast] at hold
      exact hnew hold

variable {table : KeyTable K V} {key other : K} {value : V}

theorem get_eq_some_iff : table.get key = some value ↔
    (key, value) ∈ table.entries := by
  obtain ⟨entries, hnodup⟩ := table
  rw [get]
  induction entries with
  | nil => simp
  | cons entry entries ih =>
      rw [List.map_cons, List.nodup_cons] at hnodup
      by_cases hkey : key = entry.1
      · subst hkey
        rw [List.lookup_cons_self, Option.some.injEq, List.mem_cons,
          Prod.ext_iff]
        constructor
        · rintro rfl
          exact Or.inl ⟨rfl, rfl⟩
        · rintro (hsame | hmem)
          · exact hsame.2.symm
          · exact absurd (List.mem_map_of_mem hmem) hnodup.1
      · rw [List.lookup_cons, beq_false_of_ne hkey, List.mem_cons]
        rw [ih hnodup.2]
        constructor
        · exact Or.inr
        · rintro (hsame | hmem)
          · exact absurd (congrArg Prod.fst hsame) hkey
          · exact hmem

theorem get_eq_none_iff : table.get key = none ↔
    key ∉ table.entries.map Prod.fst := by
  rw [Option.eq_none_iff_forall_ne_some]
  constructor
  · intro hnone hmem
    obtain ⟨⟨_, value⟩, hentry, rfl⟩ := List.mem_map.mp hmem
    exact hnone value (get_eq_some_iff.mpr hentry)
  · intro hnot value hsome
    exact hnot (List.mem_map.mpr ⟨_, get_eq_some_iff.mp hsome, rfl⟩)

theorem contains_iff : table.contains key = true ↔
    key ∈ table.entries.map Prod.fst := by
  rw [contains, Option.isSome_iff_ne_none, ne_eq, get_eq_none_iff, not_not]

@[simp] theorem get_set_self : (table.set key value).get key = some value := by
  rw [get_eq_some_iff, set]
  split
  · rename_i hmem
    obtain ⟨entry, hentry, rfl⟩ := List.mem_map.mp hmem
    exact List.mem_map.mpr ⟨entry, hentry, by simp⟩
  · simp

theorem get_set_of_ne (hne : other ≠ key) :
    (table.set key value).get other = table.get other := by
  apply Option.ext
  intro found
  simp only [get_eq_some_iff, set]
  split
  · rw [List.mem_map]
    constructor
    · rintro ⟨entry, hentry, heq⟩
      rw [Prod.mk.injEq] at heq
      rw [if_neg (heq.1 ▸ hne)] at heq
      rw [← heq.1, ← heq.2]
      exact hentry
    · intro hmem
      exact ⟨(other, found), hmem, by rw [if_neg hne]⟩
  · rw [List.mem_append, List.mem_singleton]
    constructor
    · rintro (hmem | heq)
      · exact hmem
      · exact absurd (congrArg Prod.fst heq) hne
    · exact Or.inl

theorem get_erase_of_ne (hne : other ≠ key) :
    (table.erase key).get other = table.get other := by
  apply Option.ext
  intro found
  simp [get_eq_some_iff, erase, hne]

theorem get_retain (change : V → V) (keep : V → Bool) :
    (table.retain change keep).get key =
      ((table.get key).map change).filter keep := by
  apply Option.ext
  intro found
  simp only [get_eq_some_iff, retain, List.mem_filter, List.mem_map,
    Option.filter_eq_some_iff, Option.map_eq_some_iff, Prod.mk.injEq,
    Prod.exists]
  constructor
  · rintro ⟨⟨name, old, hmem, rfl, rfl⟩, hkeep⟩
    exact ⟨⟨old, hmem, rfl⟩, hkeep⟩
  · rintro ⟨⟨old, hmem, rfl⟩, hkeep⟩
    exact ⟨⟨key, old, hmem, rfl, rfl⟩, hkeep⟩

omit [DecidableEq K] in
theorem size_retain_le (change : V → V) (keep : V → Bool) :
    (table.retain change keep).size ≤ table.size := by
  rw [size, size, retain]
  have hle := List.length_filter_le (fun entry : K × V => keep entry.2)
    (table.entries.map fun entry => (entry.1, change entry.2))
  rwa [List.length_map] at hle

theorem size_erase_lt (hmem : key ∈ table.entries.map Prod.fst) :
    (table.erase key).size < table.size := by
  obtain ⟨entry, hentry, rfl⟩ := List.mem_map.mp hmem
  apply List.length_filter_lt_length_iff_exists.mpr
  exact ⟨entry, hentry, by simp⟩

/-- An entry of the table is the one that removing its key takes away. -/
theorem perm_cons_erase (hmem : (key, value) ∈ table.entries) :
    table.entries.Perm ((key, value) :: (table.erase key).entries) := by
  obtain ⟨front, back, hsplit⟩ := List.append_of_mem hmem
  have hnodup := table.nodup
  rw [hsplit, List.map_append, List.map_cons, List.nodup_append,
    List.nodup_cons] at hnodup
  have hfront : front.filter (fun entry => entry.1 ≠ key) = front := by
    apply List.filter_eq_self.mpr
    intro entry hentry
    simpa using hnodup.2.2 entry.1 (List.mem_map_of_mem hentry) key
      List.mem_cons_self
  have hback : back.filter (fun entry => entry.1 ≠ key) = back := by
    apply List.filter_eq_self.mpr
    intro entry hentry
    rw [decide_eq_true_eq]
    intro hkey
    exact hnodup.2.1.1 (List.mem_map.mpr ⟨entry, hentry, hkey⟩)
  have herase : (table.erase key).entries = front ++ back := by
    simp only [erase, hsplit]
    rw [List.filter_append, hfront, List.filter_cons_of_neg (by simp), hback]
  rw [herase, hsplit]
  exact List.perm_middle

theorem entries_set_of_mem (hmem : key ∈ table.entries.map Prod.fst) :
    (table.set key value).entries = table.entries.map fun entry =>
      (entry.1, if entry.1 = key then value else entry.2) :=
  if_pos hmem

theorem entries_set_of_new (hnew : key ∉ table.entries.map Prod.fst) :
    (table.set key value).entries = table.entries ++ [(key, value)] :=
  if_neg hnew

theorem size_set :
    (table.set key value).size =
      table.size + if table.contains key then 0 else 1 := by
  rw [size]
  by_cases hmem : key ∈ table.entries.map Prod.fst
  · rw [entries_set_of_mem hmem, if_pos (contains_iff.mpr hmem),
      List.length_map, size, Nat.add_zero]
  · rw [entries_set_of_new hmem, if_neg (mt contains_iff.mp hmem),
      List.length_append, List.length_singleton, size]

end KeyTable
