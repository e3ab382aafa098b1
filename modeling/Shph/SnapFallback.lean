/-
The fallback graph of a profile.  An entry leads to every other entry whose
adapter it names, and the check accepts exactly the profiles in which all
names are used, every list of names leads somewhere, and nothing leads back to
itself.
-/
import Shph.Library.DepthFirst
import Shph.SnapProfile

namespace Shph.SnapPath

open Checked DepthFirst Relation

/-- What the graph is about in a direct endpoint or a bridge. -/
structure FallbackEntry where
  adapter : String
  allowed : List String
deriving Repr, DecidableEq

namespace FallbackEntry

variable (entries : List FallbackEntry)

/-- The other entries whose adapters an entry names. -/
def targets (current : Fin entries.length) : List (Fin entries.length) :=
  (List.finRange entries.length).filter fun index =>
    index ≠ current ∧ entries[index].adapter ∈ entries[current].allowed

/-- The checks made while the edges of one entry are collected. -/
def resolve (current : Fin entries.length) : Except SnapError Unit :=
  if entries[current].allowed = [] then .ok ()
  else do
    checkEach (fun name => require (name ∈ entries.map FallbackEntry.adapter)
      (.invalid ("allowed_fallback references adapter absent from profile: "
        ++ name))) entries[current].allowed
    require (targets entries current ≠ [])
      (.invalid "allowed_fallback does not resolve to another candidate")

/-- All edges are collected before the search, from every entry in turn. -/
def validateGraph : Except SnapError Unit := do
  checkEach (resolve entries) (List.finRange entries.length)
  require (hasCycle (targets entries) (List.finRange entries.length) = false)
    (.invalid "allowed_fallback graph must be acyclic")

end FallbackEntry

namespace SnapProfile

def fallbackEntries (profile : SnapProfile) : List FallbackEntry :=
  (profile.directEndpoints.map fun item =>
      ⟨item.adapter, item.allowedFallback⟩) ++
    profile.bridges.map fun item => ⟨item.adapter, item.allowedFallback⟩

def validateFallbackGraph (profile : SnapProfile) : Except SnapError Unit :=
  FallbackEntry.validateGraph profile.fallbackEntries

end SnapProfile

section Graph

variable {entries : List FallbackEntry}

/-- An entry allows a fallback to another one. -/
def Leads (entries : List FallbackEntry) (source target : Fin entries.length) :
    Prop :=
  target ≠ source ∧ entries[target].adapter ∈ entries[source].allowed

instance (source target : Fin entries.length) :
    Decidable (Leads entries source target) :=
  inferInstanceAs (Decidable (_ ∧ _))

/-- If entries lead to later ones only, none leads back to itself. -/
theorem not_transGen_of_lt
    (hlater : ∀ source target, Leads entries source target →
      source < target) (index : Fin entries.length) :
    ¬ TransGen (Leads entries) index index := by
  intro hcycle
  have hlt : ∀ target, TransGen (Leads entries) index target →
      index < target := by
    intro target hpath
    induction hpath with
    | single hleads => exact hlater _ _ hleads
    | tail _ hleads ih => exact ih.trans (hlater _ _ hleads)
  exact lt_irrefl index (hlt index hcycle)

theorem mem_targets {current index : Fin entries.length} :
    index ∈ FallbackEntry.targets entries current ↔
      Leads entries current index := by
  simp [FallbackEntry.targets, Leads]

theorem edge_targets : Edge (FallbackEntry.targets entries) = Leads entries := by
  funext source target
  exact propext mem_targets

theorem targets_ne_nil_iff {current : Fin entries.length} :
    FallbackEntry.targets entries current ≠ [] ↔
      ∃ index, Leads entries current index := by
  constructor
  · intro hsome
    obtain ⟨index, hindex⟩ := List.exists_mem_of_ne_nil _ hsome
    exact ⟨index, mem_targets.mp hindex⟩
  · rintro ⟨index, hleads⟩
    exact List.ne_nil_of_mem (mem_targets.mpr hleads)

/-- One entry passes when its names are used and lead somewhere. -/
theorem resolve_eq_ok_iff {current : Fin entries.length} {done : Unit} :
    FallbackEntry.resolve entries current = .ok done ↔
      (∀ name ∈ entries[current].allowed,
        ∃ index : Fin entries.length, entries[index].adapter = name) ∧
      (entries[current].allowed ≠ [] →
        ∃ index, Leads entries current index) := by
  have hused (name : String) :
      name ∈ entries.map FallbackEntry.adapter ↔
        ∃ index : Fin entries.length, entries[index].adapter = name := by
    rw [List.mem_map]
    constructor
    · rintro ⟨entry, hentry, rfl⟩
      obtain ⟨index, hindex, rfl⟩ := List.mem_iff_getElem.mp hentry
      exact ⟨⟨index, hindex⟩, rfl⟩
    · rintro ⟨index, rfl⟩
      exact ⟨_, List.getElem_mem _, rfl⟩
  rw [FallbackEntry.resolve]
  split
  · rename_i hnone
    rw [hnone]
    simp
  · rename_i hnone
    simp only [then_eq_ok, checkEach_eq_ok_iff, require_eq_ok_iff, hused,
      targets_ne_nil_iff, hnone, ne_eq, not_false_eq_true, forall_const]

/-- What the check of the graph establishes. -/
structure FallbackGraphValid (entries : List FallbackEntry) : Prop where
  named : ∀ (current : Fin entries.length),
    ∀ name ∈ entries[current].allowed,
      ∃ index : Fin entries.length, entries[index].adapter = name
  resolved : ∀ current : Fin entries.length,
    entries[current].allowed ≠ [] → ∃ index, Leads entries current index
  acyclic : ∀ index, ¬ TransGen (Leads entries) index index

theorem validateGraph_eq_ok_iff {done : Unit} :
    FallbackEntry.validateGraph entries = .ok done ↔
      FallbackGraphValid entries := by
  have hsearch := @hasCycle_iff _ _ _ (FallbackEntry.targets entries)
    (List.finRange entries.length) fun index => List.mem_finRange index
  simp only [FallbackEntry.validateGraph, then_eq_ok, checkEach_eq_ok_iff,
    require_eq_ok_iff, resolve_eq_ok_iff, List.mem_finRange, forall_const]
  rw [← Bool.not_eq_true, hsearch, not_not, Acyclic, edge_targets]
  constructor
  · rintro ⟨hresolve, hacyclic⟩
    exact ⟨fun current => (hresolve current).1,
      fun current => (hresolve current).2, hacyclic⟩
  · rintro ⟨hnamed, hresolved, hacyclic⟩
    exact ⟨fun current => ⟨hnamed current, hresolved current⟩, hacyclic⟩

end Graph

/-- The check accepts a profile just when all names in its fallback lists are
adapters of entries, every list leads to another entry, and no entry leads
back to itself. -/
theorem validateFallbackGraph_iff (profile : SnapProfile) :
    let entries := profile.fallbackEntries
    profile.validateFallbackGraph = .ok () ↔
      (∀ current : Fin entries.length, ∀ name ∈ entries[current].allowed,
        ∃ index : Fin entries.length, entries[index].adapter = name) ∧
      (∀ current : Fin entries.length, entries[current].allowed ≠ [] →
        ∃ index, Leads entries current index) ∧
      ∀ index, ¬ TransGen (Leads entries) index index := by
  intro entries
  rw [SnapProfile.validateFallbackGraph, validateGraph_eq_ok_iff]
  constructor
  · rintro ⟨hnamed, hresolved, hacyclic⟩
    exact ⟨hnamed, hresolved, hacyclic⟩
  · rintro ⟨hnamed, hresolved, hacyclic⟩
    exact ⟨hnamed, hresolved, hacyclic⟩

end Shph.SnapPath
