/-
Tables as lists of entries in the order of their keys, the way a balanced tree
is read out.  What a table holds is what a lookup finds, and a table in order
is built from its own entries.
-/
import Mathlib

namespace OrderedTable

universe u v w

variable {K : Type u} {V : Type v}

/-- The members that are there. -/
def membersOf (members : List (K × Option V)) : List (K × V) :=
  members.filterMap fun member => member.2.map fun value => (member.1, value)

@[simp] theorem membersOf_none (name : K) (rest : List (K × Option V)) :
    membersOf ((name, none) :: rest) = membersOf rest := rfl

@[simp] theorem membersOf_some (name : K) (value : V)
    (rest : List (K × Option V)) :
    membersOf ((name, some value) :: rest) =
      (name, value) :: membersOf rest := rfl

theorem mem_membersOf {members : List (K × Option V)} {name : K} {value : V} :
    (name, value) ∈ membersOf members ↔ (name, some value) ∈ members := by
  induction members with
  | nil => simp [membersOf]
  | cons first rest ih =>
      obtain ⟨label, inner⟩ := first
      cases inner with
      | none => simp [ih]
      | some inner => simp [ih]

theorem keys_membersOf {members : List (K × Option V)} :
    ((membersOf members).map Prod.fst).Sublist (members.map Prod.fst) := by
  induction members with
  | nil => exact List.Sublist.refl _
  | cons first rest ih =>
      obtain ⟨label, inner⟩ := first
      cases inner with
      | none => exact ih.cons _
      | some inner => exact ih.cons_cons _

variable [LinearOrder K]

/-- Give a key a value, in its place among the keys. -/
def insert (key : K) (value : V) : List (K × V) → List (K × V)
  | [] => [(key, value)]
  | entry :: rest =>
      if key = entry.1 then (key, value) :: rest
      else if key < entry.1 then (key, value) :: entry :: rest
      else entry :: insert key value rest

/-- Insert the entries one after the other. -/
def ofEntries (entries : List (K × V)) : List (K × V) :=
  entries.foldl (fun table entry => insert entry.1 entry.2 table) []

/-- Change the value of a key, if there is one. -/
def modify (change : V → V) (key : K) (table : List (K × V)) :
    List (K × V) :=
  table.map fun entry =>
    (entry.1, if entry.1 = key then change entry.2 else entry.2)

/-- Take a key out. -/
def erase (key : K) (table : List (K × V)) : List (K × V) :=
  table.filter fun entry => entry.1 ≠ key

def InOrder (table : List (K × V)) : Prop :=
  table.Pairwise fun left right => left.1 < right.1

theorem lookup_cons (key : K) (entry : K × V) (rest : List (K × V)) :
    (entry :: rest).lookup key =
      if key = entry.1 then some entry.2 else rest.lookup key := by
  obtain ⟨other, value⟩ := entry
  rw [List.lookup_cons]
  by_cases hsame : key = other
  · rw [beq_iff_eq.mpr hsame, if_pos hsame]
  · rw [beq_false_of_ne hsame, if_neg hsame]

theorem mem_of_lookup {table : List (K × V)} {key : K} {value : V}
    (hvalue : table.lookup key = some value) : (key, value) ∈ table := by
  obtain ⟨front, back, rfl, -⟩ := List.lookup_eq_some_iff.mp hvalue
  exact List.mem_append_right _ List.mem_cons_self

theorem lookup_of_mem {table : List (K × V)}
    (hnodup : (table.map Prod.fst).Nodup) {entry : K × V}
    (hentry : entry ∈ table) : table.lookup entry.1 = some entry.2 := by
  induction table with
  | nil => cases hentry
  | cons first rest ih =>
      rw [List.map_cons, List.nodup_cons] at hnodup
      rw [lookup_cons]
      rcases List.mem_cons.mp hentry with rfl | hrest
      · rw [if_pos rfl]
      · have hother : entry.1 ≠ first.1 := fun hsame =>
          hnodup.1 (hsame ▸ List.mem_map_of_mem hrest)
        rw [if_neg hother, ih hnodup.2 hrest]

theorem lookup_insert (key other : K) (value : V) (table : List (K × V)) :
    (insert key value table).lookup other =
      if other = key then some value else table.lookup other := by
  induction table with
  | nil => rw [insert, lookup_cons]
  | cons entry rest ih =>
      rw [insert]
      by_cases hkey : key = entry.1
      · rw [if_pos hkey, lookup_cons, lookup_cons, ← hkey]
        by_cases hsame : other = key
        · rw [if_pos hsame, if_pos hsame]
        · rw [if_neg hsame, if_neg hsame, if_neg hsame]
      · rw [if_neg hkey]
        by_cases hlt : key < entry.1
        · rw [if_pos hlt, lookup_cons]
        · rw [if_neg hlt, lookup_cons, ih, lookup_cons]
          by_cases hsame : other = key
          · rw [if_neg (hsame ▸ hkey), if_pos hsame, if_pos hsame]
          · rw [if_neg hsame, if_neg hsame]

theorem lookup_erase (key other : K) (table : List (K × V)) :
    (erase key table).lookup other =
      if other = key then none else table.lookup other := by
  induction table with
  | nil => simp [erase]
  | cons entry rest ih =>
      rw [erase] at ih ⊢
      by_cases hentry : entry.1 = key
      · rw [List.filter_cons_of_neg (by simpa using hentry), ih, lookup_cons]
        by_cases hsame : other = key
        · rw [if_pos hsame, if_pos hsame]
        · rw [if_neg hsame, if_neg hsame, if_neg (hentry ▸ hsame)]
      · rw [List.filter_cons_of_pos (by simpa using hentry), lookup_cons, ih,
          lookup_cons]
        by_cases hsame : other = key
        · rw [if_pos hsame, if_pos hsame, if_neg (hsame ▸ Ne.symm hentry)]
        · rw [if_neg hsame, if_neg hsame]

theorem mem_keys_insert {key other : K} {value : V} {table : List (K × V)} :
    other ∈ (insert key value table).map Prod.fst ↔
      other = key ∨ other ∈ table.map Prod.fst := by
  induction table with
  | nil => simp [insert]
  | cons entry rest ih =>
      rw [insert]
      by_cases hkey : key = entry.1
      · rw [if_pos hkey, List.map_cons, List.map_cons, List.mem_cons,
          List.mem_cons, hkey]
        tauto
      · rw [if_neg hkey]
        by_cases hlt : key < entry.1
        · rw [if_pos hlt, List.map_cons, List.mem_cons]
        · rw [if_neg hlt, List.map_cons, List.map_cons, List.mem_cons,
            List.mem_cons, ih]
          tauto

theorem insert_inOrder {key : K} {value : V} {table : List (K × V)}
    (horder : InOrder table) : InOrder (insert key value table) := by
  induction table with
  | nil => exact List.pairwise_singleton _ _
  | cons entry rest ih =>
      obtain ⟨hfirst, hrest⟩ := List.pairwise_cons.mp horder
      rw [insert]
      by_cases hkey : key = entry.1
      · rw [if_pos hkey]
        refine List.pairwise_cons.mpr ⟨fun other hother => ?_, hrest⟩
        rw [hkey]
        exact hfirst other hother
      · rw [if_neg hkey]
        by_cases hlt : key < entry.1
        · rw [if_pos hlt]
          refine List.pairwise_cons.mpr ⟨fun other hother => ?_, horder⟩
          rcases List.mem_cons.mp hother with rfl | hother
          · exact hlt
          · exact hlt.trans (hfirst other hother)
        · rw [if_neg hlt]
          have hbehind : entry.1 < key :=
            lt_of_le_of_ne (not_lt.mp hlt) (Ne.symm hkey)
          refine List.pairwise_cons.mpr ⟨fun other hother => ?_, ih hrest⟩
          rcases mem_keys_insert.mp (List.mem_map_of_mem hother) with
            hsame | hold
          · rw [hsame]
            exact hbehind
          · obtain ⟨old, hold, hsame⟩ := List.mem_map.mp hold
            rw [← hsame]
            exact hfirst old hold

/-- A key behind all others goes to the end. -/
theorem insert_last {key : K} {value : V} {table : List (K × V)}
    (hlast : ∀ entry ∈ table, entry.1 < key) :
    insert key value table = table ++ [(key, value)] := by
  induction table with
  | nil => rfl
  | cons entry rest ih =>
      rw [List.forall_mem_cons] at hlast
      rw [insert, if_neg hlast.1.ne', if_neg hlast.1.le.not_gt, ih hlast.2]
      rfl

theorem insert_perm {key : K} {value : V} {table : List (K × V)}
    (hnew : key ∉ table.map Prod.fst) :
    (insert key value table).Perm ((key, value) :: table) := by
  induction table with
  | nil => exact List.Perm.refl _
  | cons entry rest ih =>
      rw [List.map_cons, List.mem_cons, not_or] at hnew
      rw [insert, if_neg hnew.1]
      by_cases hlt : key < entry.1
      · rw [if_pos hlt]
      · rw [if_neg hlt]
        exact ((ih hnew.2).cons entry).trans (List.Perm.swap _ _ _)

theorem ofEntries_snoc (entries : List (K × V)) (key : K) (value : V) :
    ofEntries (entries ++ [(key, value)]) =
      insert key value (ofEntries entries) := by
  rw [ofEntries, List.foldl_append]
  rfl

theorem ofEntries_inOrder (entries : List (K × V)) :
    InOrder (ofEntries entries) := by
  induction entries using List.reverseRecOn with
  | nil => exact List.Pairwise.nil
  | append_singleton entries entry ih =>
      rw [ofEntries_snoc]
      exact insert_inOrder ih

theorem mem_keys_ofEntries {entries : List (K × V)} {key : K} :
    key ∈ (ofEntries entries).map Prod.fst ↔ key ∈ entries.map Prod.fst := by
  induction entries using List.reverseRecOn with
  | nil => rfl
  | append_singleton entries entry ih =>
      rw [ofEntries_snoc, mem_keys_insert, ih, List.map_append,
        List.mem_append]
      simp [or_comm]

/-- Distinct keys are found with their values. -/
theorem lookup_ofEntries {entries : List (K × V)}
    (hnodup : (entries.map Prod.fst).Nodup) (key : K) :
    (ofEntries entries).lookup key = entries.lookup key := by
  induction entries using List.reverseRecOn with
  | nil => rfl
  | append_singleton entries entry ih =>
      rw [List.map_append, List.nodup_append] at hnodup
      rw [ofEntries_snoc, lookup_insert, ih hnodup.1, List.lookup_append]
      by_cases hsame : key = entry.1
      · have hnone : entries.lookup key = none := by
          rw [List.lookup_eq_none_iff]
          intro old hold
          rw [bne_iff_ne, hsame]
          exact (hnodup.2.2 old.1 (List.mem_map_of_mem hold) entry.1
            (by simp)).symm
        rw [if_pos hsame, hnone, lookup_cons, if_pos hsame]
        rfl
      · rw [if_neg hsame, lookup_cons, if_neg hsame, List.lookup_nil,
          Option.or_none]

/-- Under different keys every entry is kept. -/
theorem ofEntries_perm {entries : List (K × V)}
    (hnodup : (entries.map Prod.fst).Nodup) :
    (ofEntries entries).Perm entries := by
  induction entries using List.reverseRecOn with
  | nil => exact List.Perm.refl _
  | append_singleton entries entry ih =>
      rw [List.map_append, List.map_singleton, List.nodup_append] at hnodup
      have hnew : entry.1 ∉ (ofEntries entries).map Prod.fst := by
        rw [mem_keys_ofEntries]
        intro hkey
        exact hnodup.2.2 _ hkey _ (List.mem_singleton_self _) rfl
      rw [ofEntries_snoc]
      exact (insert_perm hnew).trans (((ih hnodup.1).cons _).trans
        (List.perm_append_singleton _ _).symm)

/-- A table in order is built from its own entries. -/
theorem ofEntries_of_inOrder {table : List (K × V)} (horder : InOrder table) :
    ofEntries table = table := by
  induction table using List.reverseRecOn with
  | nil => rfl
  | append_singleton table entry ih =>
      rw [InOrder, List.pairwise_append] at horder
      rw [ofEntries_snoc, ih horder.1]
      exact insert_last fun old hold =>
        horder.2.2 old hold entry (List.mem_singleton_self entry)

theorem keys_modify (change : V → V) (key : K) (table : List (K × V)) :
    (modify change key table).map Prod.fst = table.map Prod.fst := by
  rw [modify, List.map_map]
  rfl

theorem lookup_modify (change : V → V) (key other : K)
    (table : List (K × V)) :
    (modify change key table).lookup other =
      if other = key then (table.lookup other).map change
      else table.lookup other := by
  induction table with
  | nil => simp [modify]
  | cons entry rest ih =>
      rw [modify] at ih ⊢
      rw [List.map_cons, lookup_cons, ih, lookup_cons]
      by_cases hsame : other = entry.1
      · rw [if_pos hsame, if_pos hsame, hsame]
        by_cases hkey : entry.1 = key
        · rw [if_pos hkey, if_pos hkey, Option.map_some]
        · rw [if_neg hkey, if_neg hkey]
      · rw [if_neg hsame, if_neg hsame]

/-- Nothing changes when a key gets the value it has. -/
theorem insert_lookup {key : K} {value : V} {table : List (K × V)}
    (horder : InOrder table) (hvalue : table.lookup key = some value) :
    insert key value table = table := by
  induction table with
  | nil => cases hvalue
  | cons entry rest ih =>
      obtain ⟨hfirst, hrest⟩ := List.pairwise_cons.mp horder
      rw [lookup_cons] at hvalue
      rw [insert]
      by_cases hkey : key = entry.1
      · rw [if_pos hkey] at hvalue ⊢
        rw [← Option.some.inj hvalue, hkey]
      · rw [if_neg hkey] at hvalue ⊢
        have hbehind := hfirst _ (mem_of_lookup hvalue)
        rw [if_neg hbehind.not_gt, ih hrest hvalue]

/-- A table of members gives back each of them under its name. -/
theorem lookup_membersOf {members : List (K × Option V)}
    (hnames : (members.map Prod.fst).Nodup) {name : K}
    {value : Option V} (hmember : (name, value) ∈ members) :
    (ofEntries (membersOf members)).lookup name = value := by
  have hkeys := keys_membersOf.nodup hnames
  rw [lookup_ofEntries hkeys]
  cases value with
  | some value => exact lookup_of_mem hkeys (mem_membersOf.mpr hmember)
  | none =>
      rw [Option.eq_none_iff_forall_ne_some]
      intro value hvalue
      have hother := mem_membersOf.mp (mem_of_lookup hvalue)
      cases List.inj_on_of_nodup_map hnames hmember hother rfl

theorem forall_lookup_membersOf {members : List (K × Option V)}
    (hnames : (members.map Prod.fst).Nodup) :
    ∀ member ∈ members,
      (ofEntries (membersOf members)).lookup member.1 = member.2 :=
  fun _ hmember => lookup_membersOf hnames hmember

end OrderedTable
