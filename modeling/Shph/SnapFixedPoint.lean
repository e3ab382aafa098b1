/-
A profile that was read is written and read again.  It comes back if and only
if the normalisation leaves alone what is written, and whether it does is seen
in the document the profile was read from.
-/
import Shph.SnapEntries

namespace Shph.SnapPath

open ByteCodec Checked ControlPlane JsonTree OrderedTable SnapProfile
section Settled

/-- Notes are given; in the form of a list they are written without white
space around them and are not empty. -/
def edgeSettled : Json → Prop
  | .object fields => (fields.lookup "notes").isSome = true
  | .array items => ∃ notes, items[edgeFields.idxOf "notes"]? = some notes ∧
      trimString notes = notes
  | _ => True

/-- An order that comes in the list of a list is complete. -/
def preferencesSettled : Json → Prop
  | .array [.array names] => normalizeOrder names = names
  | _ => True

/-- The root of a document whose profile is written in a form that the
normalisation leaves alone. -/
structure Settled (text : AddressText) (root : List (String × Json)) :
    Prop where
  edges : ∀ edges, root.lookup "edge_profiles" = some (.object edges) →
    ∀ edge ∈ edges, edgeSettled edge.2
  directs : ∀ items, root.lookup "direct_endpoints" = some (.array items) →
    ∀ item ∈ items,
      entrySettled (candidateChanges text) directEndpointFields item
  repeats : ∀ items, root.lookup "direct_endpoints" = some (.array items) →
    items.Pairwise (RepeatsKnown text)
  bridges : ∀ items, root.lookup "bridges" = some (.array items) →
    ∀ item ∈ items, entrySettled (candidateChanges text) bridgeFields item
  preferences : ∀ value, root.lookup "transport_preferences" = some value →
    preferencesSettled value

end Settled

section Edges

theorem unchanged_edge_iff {edge : EdgeProfile}
    (hhost : trimString (.string edge.host) = .string edge.host) :
    Unchanged edgeChanges (fun name => edge.members.lookup name) ↔
      trimString (.string edge.notes) = .string edge.notes := by
  simp only [Unchanged, edgeChanges, List.forall_mem_cons]
  constructor
  · rintro ⟨-, hnotes, -⟩
    exact hnotes _ rfl
  · intro hnotes
    refine ⟨fun value hvalue => ?_, fun value hvalue => ?_, fun _ hnone =>
      absurd hnone List.not_mem_nil⟩
    · rw [← Option.some.inj hvalue]
      exact hhost
    · rw [← Option.some.inj hvalue]
      exact hnotes

theorem read_edge_iff {edge : EdgeProfile} :
    readEdge (normalizeEdge (.ofMembers edge.members)) = some edge ↔
      Unchanged edgeChanges fun name => edge.members.lookup name :=
  EdgeProfile.textFields.read_applyChanges_iff trivial

/-- Notes of an edge profile are written as they are read, but for notes that
are missing: they are written as an empty text, which does not stay. -/
theorem edgeSettled_iff {value : Json} {edge : EdgeProfile}
    (hread : readEdge (normalizeEdge value) = some edge)
    (hhost : trimString (.string edge.host) = .string edge.host) :
    Unchanged edgeChanges (fun name => edge.members.lookup name) ↔
      edgeSettled (normalizeEdge value) := by
  rw [unchanged_edge_iff hhost]
  obtain ⟨field, hfield, hof⟩ := Option.bind_eq_some_iff.mp hread
  have hnotes := (EdgeProfile.ofFields_eq_some_iff.mp hof).notes
  have hmissing : field "notes" = none →
      ¬ trimString (.string edge.notes) = .string edge.notes := by
    intro hnone hsame
    rw [hnone] at hnotes
    rw [← Option.some.inj hnotes] at hsame
    cases hsame
  cases value with
  | object fields =>
      have hchanged : field "notes" =
          (fields.lookup "notes").map trimString := by
        rw [eq_lookup_of_structOf hfield]
        exact lookup_applyChanges EdgeProfile.textFields.changeNames _ _
      have hsome : edgeSettled (normalizeEdge (.object fields)) ↔
          (field "notes").isSome = true := by
        rw [eq_lookup_of_structOf hfield]
        exact Iff.rfl
      rw [hsome, hchanged]
      cases hold : fields.lookup "notes" with
      | none =>
          rw [hold] at hchanged
          exact iff_of_false (hmissing hchanged) Bool.false_ne_true
      | some old =>
          rw [hchanged, hold] at hnotes
          rw [← Json.asString_eq_some_iff.mp hnotes]
          exact iff_of_true (trimString_trimString old) rfl
  | array items =>
      rw [eq_getElem_of_structOf hfield] at hnotes hmissing
      dsimp only at hnotes hmissing
      change _ ↔ ∃ notes, items[edgeFields.idxOf "notes"]? = some notes ∧
        trimString notes = notes
      cases hitem : items[edgeFields.idxOf "notes"]? with
      | none =>
          exact iff_of_false (hmissing hitem) fun ⟨_, hsome, _⟩ => by
            cases hsome
      | some notes =>
          rw [hitem] at hnotes
          rw [← Json.asString_eq_some_iff.mp hnotes]
          exact ⟨fun hsame => ⟨notes, rfl, hsame⟩, fun ⟨_, hsome, hsame⟩ =>
            Option.some.inj hsome ▸ hsame⟩
  | _ => cases hfield

theorem edgeSettled_normalizeEdge {value : Json} :
    edgeSettled (normalizeEdge value) ↔ edgeSettled value := by
  cases value with
  | object fields =>
      change ((applyChanges edgeChanges fields).lookup "notes").isSome = true ↔
        (fields.lookup "notes").isSome = true
      rw [lookup_applyChanges EdgeProfile.textFields.changeNames,
        Option.isSome_map]
  | _ => exact Iff.rfl

/-- The labels the edge profiles of a document are given. -/
structure EdgesInOrder (edges : List (String × EdgeProfile)) : Prop where
  order : (edges.map Prod.fst).Pairwise (· < ·)
  trimmed : ∀ labelled ∈ edges, trim labelled.1 = labelled.1

theorem keys_of_mapM {members : List (String × Json)}
    {edges : List (String × EdgeProfile)}
    (hread : members.mapM readLabelledEdge = some edges) :
    edges.map Prod.fst = members.map Prod.fst := by
  induction members generalizing edges with
  | nil =>
      rw [← Option.some.inj hread]
      rfl
  | cons member rest ih =>
      obtain ⟨first, others, hfirst, hothers, rfl⟩ :=
        mapM_cons_eq_some_iff.mp hread
      obtain ⟨edge, -, rfl⟩ := Option.map_eq_some_iff.mp hfirst
      rw [List.map_cons, List.map_cons, ih hothers]

variable {root edged : List (String × Json)}
  {edges : List (String × EdgeProfile)}

theorem normalizeRootEdges_eq_ok
    (hedged : normalizeRootEdges root = .ok edged) :
    (root.lookup "edge_profiles" = none ∧
      edged.lookup "edge_profiles" = none) ∨
    ∃ old new, root.lookup "edge_profiles" = some old ∧
      normalizeEdgeProfiles (nullTo (.object []) old) = .ok new ∧
      edged.lookup "edge_profiles" = some new := by
  rw [normalizeRootEdges] at hedged
  split at hedged
  · rename_i old hold
    obtain ⟨new, hnew, hedged⟩ := bind_eq_ok.mp hedged
    refine .inr ⟨old, new, hold, hnew, ?_⟩
    rw [← Except.ok.inj hedged, lookup_insert, if_pos rfl]
  · rename_i hnone
    rw [← Except.ok.inj hedged]
    exact .inl ⟨hnone, hnone⟩

theorem edges_of_members {members normalized : List (String × Json)}
    (hnormal : normalizeEdges [] members = .ok normalized)
    (hread : normalized.mapM readLabelledEdge = some edges)
    (hhost : ∀ labelled ∈ edges, trimString (.string labelled.2.host) =
      .string labelled.2.host) :
    EdgesInOrder edges ∧
      ((∀ labelled ∈ edges, Unchanged edgeChanges
        fun name => labelled.2.members.lookup name) ↔
      ∀ member ∈ members, edgeSettled member.2) := by
  obtain ⟨horder, htrimmed, hperm⟩ := normalizeEdges_eq_ok hnormal
    List.Pairwise.nil (List.forall_mem_nil _)
  have hkeys := keys_of_mapM hread
  refine ⟨⟨hkeys ▸ List.pairwise_map.mpr horder, ?_⟩, ?_⟩
  · intro labelled hlabelled
    have hkey : labelled.1 ∈ normalized.map Prod.fst :=
      hkeys ▸ List.mem_map_of_mem hlabelled
    obtain ⟨entry, hentry, hsame⟩ := List.mem_map.mp hkey
    rw [← hsame]
    exact htrimmed entry hentry
  · have hnormalized : (∀ labelled ∈ edges, Unchanged edgeChanges
        fun name => labelled.2.members.lookup name) ↔
        ∀ entry ∈ normalized, edgeSettled entry.2 := by
      apply forall_mapM_iff hread
      intro entry hentry labelled hlabelled hone
      obtain ⟨member, -, rfl⟩ := List.mem_map.mp (hperm.mem_iff.mp hentry)
      obtain ⟨edge, hedge, rfl⟩ := Option.map_eq_some_iff.mp hone
      exact edgeSettled_iff hedge (hhost _ hlabelled)
    rw [hnormalized]
    constructor
    · intro hall member hmember
      exact edgeSettled_normalizeEdge.mp (hall (trim member.1,
        normalizeEdge member.2) (hperm.mem_iff.mpr
          (List.mem_map_of_mem hmember)))
    · intro hall entry hentry
      obtain ⟨member, hmember, rfl⟩ :=
        List.mem_map.mp (hperm.mem_iff.mp hentry)
      exact edgeSettled_normalizeEdge.mpr (hall member hmember)

/-- What is read of the edge profiles of a document. -/
theorem edges_of_document (hedged : normalizeRootEdges root = .ok edged)
    (hread : defaulted readEdges [] (edged.lookup "edge_profiles") =
      some edges)
    (hhost : ∀ labelled ∈ edges, trimString (.string labelled.2.host) =
      .string labelled.2.host) :
    EdgesInOrder edges ∧
      ((∀ labelled ∈ edges, Unchanged edgeChanges
        fun name => labelled.2.members.lookup name) ↔
      ∀ members, root.lookup "edge_profiles" = some (.object members) →
        ∀ member ∈ members, edgeSettled member.2) := by
  rcases normalizeRootEdges_eq_ok hedged with ⟨hnone, hnew⟩ |
    ⟨old, new, hold, hnormal, hnew⟩
  · rw [hnew] at hread
    rw [← Option.some.inj hread, hnone]
    exact ⟨⟨List.Pairwise.nil, List.forall_mem_nil _⟩,
      iff_of_true (List.forall_mem_nil _) nofun⟩
  · rw [hnew] at hread
    rw [hold]
    cases old with
    | null =>
        obtain ⟨normalized, hnormal, hsame⟩ := bind_eq_ok.mp hnormal
        rw [← Except.ok.inj hsame] at hread
        obtain ⟨horder, hsettled⟩ := edges_of_members hnormal hread hhost
        exact ⟨horder, iff_of_true
          (hsettled.mpr (List.forall_mem_nil _)) nofun⟩
    | object members =>
        obtain ⟨normalized, hnormal, hsame⟩ := bind_eq_ok.mp hnormal
        rw [← Except.ok.inj hsame] at hread
        obtain ⟨horder, hsettled⟩ := edges_of_members hnormal hread hhost
        refine ⟨horder, hsettled.trans ⟨fun hall others hsame => ?_,
          fun hall => hall members rfl⟩⟩
        rw [← Json.object.inj (Option.some.inj hsame)]
        exact hall
    | _ =>
        rw [← Except.ok.inj hnormal] at hread
        cases hread

/-- The edge profiles as they are written, and normalised once more. -/
theorem normalizeEdgeProfiles_written (horder : EdgesInOrder edges) :
    normalizeEdgeProfiles (.ofMembers (edges.map fun labelled =>
        (labelled.1, .ofMembers labelled.2.members))) =
      .ok (.object (edges.map fun labelled =>
        (labelled.1, normalizeEdge (.ofMembers labelled.2.members)))) := by
  generalize hwritten : (edges.map fun labelled =>
    (labelled.1, Json.ofMembers labelled.2.members)) = written
  have hkeys : written.map Prod.fst = edges.map Prod.fst := by
    rw [← hwritten, List.map_map]
    rfl
  have hinOrder : InOrder written :=
    List.pairwise_map.mp (hkeys ▸ horder.order)
  have htrimmed : ∀ edge ∈ written, trim edge.1 = edge.1 := by
    rw [← hwritten, List.forall_mem_map]
    exact horder.trimmed
  have hnormal := @normalizeEdges_of_inOrder [] written
    (hkeys ▸ horder.order) htrimmed
  rw [Json.ofMembers, ofEntries_of_inOrder hinOrder, normalizeEdgeProfiles,
    hnormal, ← hwritten, List.map_map]
  rfl

theorem readEdges_written_iff :
    readEdges (.object (edges.map fun labelled =>
        (labelled.1, normalizeEdge (.ofMembers labelled.2.members)))) =
      some edges ↔
      ∀ labelled ∈ edges, Unchanged edgeChanges
        fun name => labelled.2.members.lookup name := by
  rw [readEdges, mapM_map_eq_some_iff]
  refine forall₂_congr fun labelled _ => ?_
  rw [← read_edge_iff, readLabelledEdge, Option.map_eq_some_iff]
  constructor
  · rintro ⟨edge, hedge, hsame⟩
    obtain rfl : edge = labelled.2 := congrArg Prod.snd hsame
    exact hedge
  · intro hedge
    exact ⟨labelled.2, hedge, rfl⟩

end Edges

section Preferences

theorem normalizeOrder_nil : normalizeOrder [] =
    defaultAdapterOrder.map .string := by
  rfl

theorem readPreferences_eq {field : String → Option Json} {value : Json}
    {preferences : TransportPreferences}
    (hfield : structOf preferenceFields value = some field)
    (hread : readPreferences value = some preferences) :
    defaulted readStrings defaultAdapterOrder (field "adapter_order") =
      some preferences.adapterOrder := by
  rw [readPreferences, hfield, Option.bind_some,
    TransportPreferences.ofFields] at hread
  obtain ⟨order, horder, hread⟩ := Option.bind_eq_some_iff.mp hread
  rw [← Option.some.inj hread]
  exact horder

/-- An order that was completed is complete. -/
theorem normalizeOrder_of_completed {items : List Json} {names : List String}
    (hread : readStrings (.array (normalizeOrder items)) = some names) :
    normalizeOrder (names.map .string) = names.map .string := by
  rw [← Json.array.inj (readStrings_eq_some_iff.mp hread)]
  exact normalizeOrder_normalizeOrder items

theorem preferencesSettled_iff {value : Json}
    {preferences : TransportPreferences}
    (hread : readPreferences (normalizePreferences value) =
      some preferences) :
    normalizeOrder (preferences.adapterOrder.map .string) =
        preferences.adapterOrder.map .string ↔
      preferencesSettled value := by
  obtain ⟨field, hfield, -⟩ := Option.bind_eq_some_iff.mp hread
  have horder := readPreferences_eq hfield hread
  cases value with
  | object members =>
      refine iff_of_true ?_ trivial
      rw [normalizePreferences] at hfield
      split at hfield
      · rw [eq_lookup_of_structOf hfield] at horder
        dsimp only at horder
        rw [lookup_insert, if_pos rfl] at horder
        exact normalizeOrder_of_completed horder
      · rw [eq_lookup_of_structOf hfield] at horder
        dsimp only at horder
        rw [lookup_insert, if_pos rfl] at horder
        exact normalizeOrder_of_completed horder
      · -- An order of another kind stays as it is and is not read.
        rename_i other hother hvalue
        obtain ⟨raw, hraw, hkept⟩ := Option.map_eq_some_iff.mp hvalue
        rw [eq_lookup_of_structOf hfield] at horder
        dsimp only at horder
        rw [hraw] at horder
        rw [readStrings_eq_some_iff.mp horder] at hkept
        exact absurd hkept.symm (hother _)
  | array items =>
      have hitems := eq_getElem_of_structOf hfield
      rw [hitems] at horder
      cases items with
      | nil =>
          refine iff_of_true ?_ trivial
          rw [← Option.some.inj horder, ← normalizeOrder_nil]
          exact normalizeOrder_normalizeOrder []
      | cons item rest =>
          cases rest with
          | nil =>
              rw [readStrings_eq_some_iff.mp horder]
              exact Iff.rfl
          | cons other rest =>
              exact absurd (length_le_of_structOf hfield)
                (by simp [preferenceFields])
  | _ => cases hfield

/-- Preferences are read again if and only if their order is complete. -/
theorem readPreferences_written_iff {preferences : TransportPreferences} :
    readPreferences (normalizePreferences (.ofMembers preferences.members)) =
      some preferences ↔
      normalizeOrder (preferences.adapterOrder.map .string) =
        preferences.adapterOrder.map .string := by
  have hnormal : normalizePreferences (.ofMembers preferences.members) =
      .object [("adapter_order", .array (normalizeOrder
        (preferences.adapterOrder.map .string)))] :=
    rfl
  have hfield := @structOf_object preferenceFields
    [("adapter_order", Json.array (normalizeOrder
      (preferences.adapterOrder.map .string)))] fun key hkey => hkey
  rw [hnormal]
  constructor
  · intro hread
    have horder := readPreferences_eq hfield hread
    exact Json.array.inj (readStrings_eq_some_iff.mp horder)
  · intro hcomplete
    rw [readPreferences, hfield, Option.bind_some, hcomplete,
      TransportPreferences.ofFields]
    exact Option.bind_eq_some_iff.mpr
      ⟨_, readStrings_eq_some_iff.mpr rfl, rfl⟩

end Preferences

section Retry

/-- What the checks of a retry policy are needed for here. -/
structure RetrySound (policy : RetryPolicy) : Prop where
  base : policy.backoffBaseSec.isFinite = true
  max : policy.backoffMaxSec.isFinite = true
  jitter : policy.jitterRatio.isFinite = true
  elapsed : policy.maxElapsedSec.isFinite = true

theorem RetryPolicy.ofFields_members {policy : RetryPolicy}
    (hsound : RetrySound policy) :
    RetryPolicy.ofFields (fun name => policy.members.lookup name) =
      some policy := by
  have hrounds : defaulted readUInt32 defaultRounds
      (policy.members.lookup "rounds") = some policy.rounds :=
    readUInt32_ofUInt32 _
  have hbase : defaulted readBinary64 defaultBackoffBase
      (policy.members.lookup "backoff_base_sec") =
        some policy.backoffBaseSec :=
    readBinary64_ofBinary64 hsound.base
  have hmax : defaulted readBinary64 defaultBackoffMax
      (policy.members.lookup "backoff_max_sec") = some policy.backoffMaxSec :=
    readBinary64_ofBinary64 hsound.max
  have hjitter : defaulted readBinary64 defaultJitter
      (policy.members.lookup "jitter_ratio") = some policy.jitterRatio :=
    readBinary64_ofBinary64 hsound.jitter
  have horder : defaulted (readVariant roundOrders) .stable
      (policy.members.lookup "round_order") = some policy.roundOrder :=
    readOrder_roundOrderName _
  have hseed : defaulted (readOption readUInt64) none
      (policy.members.lookup "shuffle_seed") = some policy.shuffleSeed :=
    readOption_ofOption fun seed _ => ⟨nofun, readUInt64_ofUInt64 seed⟩
  have hattempts : defaulted readUInt32 0
      (policy.members.lookup "max_total_attempts") =
        some policy.maxTotalAttempts :=
    readUInt32_ofUInt32 _
  have helapsed : defaulted readBinary64 ⟨0⟩
      (policy.members.lookup "max_elapsed_sec") = some policy.maxElapsedSec :=
    readBinary64_ofBinary64 hsound.elapsed
  rw [RetryPolicy.ofFields, hrounds, hbase, hmax, hjitter, horder, hseed,
    hattempts, helapsed]
  rfl

theorem lowercaseString_roundOrderName (order : RoundOrder) :
    lowercaseString (.string (roundOrderName order)) =
      .string (roundOrderName order) := by
  cases order <;> exact lowercaseString_default (by decide)

theorem readRetry_written {policy : RetryPolicy}
    (hsound : RetrySound policy) :
    readRetry (normalizeRetry (.ofMembers policy.members)) =
      some policy := by
  have hkeys : policy.members.map Prod.fst = retryFields := rfl
  have hnodup : retryFields.Nodup := by decide
  have hknown : ∀ key ∈ (modify lowercaseString "round_order"
      (ofEntries policy.members)).map Prod.fst, key ∈ retryFields := by
    intro key hkey
    rw [keys_modify] at hkey
    exact hkeys ▸ mem_keys_ofEntries.mp hkey
  have hsame : (fun name => (modify lowercaseString "round_order"
      (ofEntries policy.members)).lookup name) =
        fun name => policy.members.lookup name := by
    funext name
    rw [lookup_modify, lookup_ofEntries (hkeys ▸ hnodup)]
    by_cases hname : name = "round_order"
    · rw [if_pos hname, hname]
      exact congrArg some (lowercaseString_roundOrderName _)
    · rw [if_neg hname]
  rw [readRetry, Json.ofMembers, normalizeRetry, structOf_object hknown,
    Option.bind_some, hsame]
  exact RetryPolicy.ofFields_members hsound

end Retry

section Sound

/-- What the checks of a profile are needed for here. -/
structure ProfileSound (text : AddressText) (profile : SnapProfile) :
    Prop where
  timeout : profile.connectTimeoutSec.isFinite = true
  retry : RetrySound profile.retryPolicy
  directs : ∀ endpoint ∈ profile.directEndpoints, DirectSound text endpoint
  bridges : ∀ bridge ∈ profile.bridges, BridgeSound text bridge
  hosts : ∀ labelled ∈ profile.edgeProfiles,
    trimString (.string labelled.2.host) = .string labelled.2.host

theorem isFinite_of_validateRange {field : String} {value : Binary64}
    {min max : Bound} (hrange : validateRange field value min max = .ok ()) :
    value.isFinite = true := by
  have hwithin := require_eq_ok_iff.mp hrange
  rw [Binary64.within, Bool.and_eq_true, Bool.and_eq_true] at hwithin
  exact hwithin.1.1

theorem finiteTimeout_of_valid {field : String} {timeout : Option Binary64}
    (hvalid : validateOptionalTimeout field timeout = .ok ()) :
    FiniteTimeout timeout := by
  intro seconds hseconds
  rw [Option.mem_def.mp hseconds] at hvalid
  exact isFinite_of_validateRange hvalid

theorem retrySound_of_valid {policy : RetryPolicy}
    (hvalid : policy.validate = .ok ()) : RetrySound policy := by
  simp only [RetryPolicy.validate, then_eq_ok] at hvalid
  obtain ⟨-, hbase, hmax, -, hjitter, -, helapsed, -⟩ := hvalid
  exact ⟨isFinite_of_validateRange hbase, isFinite_of_validateRange hmax,
    isFinite_of_validateRange hjitter, isFinite_of_validateRange helapsed⟩

theorem directSound_of_valid {text : AddressText} {endpoint : DirectEndpoint}
    (hvalid : endpoint.validate text = .ok ()) :
    DirectSound text endpoint := by
  simp only [DirectEndpoint.validate, then_eq_ok, @bind_eq_ok _ String]
    at hvalid
  obtain ⟨hip, -, -, _, -, -, -, -, htimeout, -⟩ := hvalid
  exact ⟨finiteTimeout_of_valid htimeout, require_eq_ok_iff.mp hip⟩

theorem trim_ne_of_valid {field value : String} {max : Nat}
    (hvalid : validateText field value max = .ok ()) : trim value ≠ "" :=
  fun hempty => (require_eq_ok_iff.mp hvalid).1
    (trim_eq_empty_iff.mp hempty)

theorem bridgeSound_of_valid {text : AddressText}
    {edges : List (String × EdgeProfile)} {seen labels : List String}
    {bridge : Bridge}
    (hvalid : bridge.validate text edges seen = .ok labels) :
    BridgeSound text bridge := by
  simp only [Bridge.validate, then_eq_ok] at hvalid
  obtain ⟨hlabel, -, hfields, -⟩ := hvalid
  simp only [Bridge.validateFields, then_eq_ok] at hfields
  obtain ⟨hip, -, -, -, -, -, -, htimeout, -⟩ := hfields
  exact ⟨finiteTimeout_of_valid htimeout, trim_ne_of_valid hlabel,
    require_eq_ok_iff.mp hip⟩

theorem trimString_host_of_valid {label : String} {edge : EdgeProfile}
    (hvalid : edge.validate label = .ok ()) :
    trimString (.string edge.host) = .string edge.host := by
  simp only [EdgeProfile.validate, validateHost, then_eq_ok] at hvalid
  obtain ⟨-, ⟨htext, hplain⟩, -⟩ := hvalid
  have hwhite := (require_eq_ok_iff.mp hplain).1
  have htrim : trim edge.host = edge.host := trim_eq_self fun char hchar =>
    Bool.eq_false_iff.mpr (List.any_eq_false.mp hwhite char hchar)
  exact trimString_of_trimmed htrim (htrim ▸ trim_ne_of_valid htext)

/-- The items a fold got through were each let through. -/
theorem exists_step_of_foldlM {S A E : Type} {step : S → A → Except E S}
    {items : List A} {first last : S}
    (hfold : items.foldlM step first = .ok last) :
    ∀ item ∈ items, ∃ before after, step before item = .ok after := by
  induction items generalizing first with
  | nil => exact List.forall_mem_nil _
  | cons item rest ih =>
      rw [List.foldlM_cons] at hfold
      obtain ⟨next, hstep, hrest⟩ := bind_eq_ok.mp hfold
      exact List.forall_mem_cons.mpr ⟨⟨first, next, hstep⟩, ih hrest⟩

theorem ProfileValid.sound {text : SnapText} {profile : SnapProfile}
    (hvalid : ProfileValid text profile) :
    ProfileSound text.addresses profile where
  timeout := isFinite_of_validateRange hvalid.timeout
  retry := retrySound_of_valid hvalid.retry
  directs endpoint hendpoint :=
    directSound_of_valid (hvalid.endpoints endpoint hendpoint)
  bridges bridge hbridge := by
    obtain ⟨labels, hfold⟩ := hvalid.bridges
    obtain ⟨seen, after, hstep⟩ := exists_step_of_foldlM hfold bridge hbridge
    exact bridgeSound_of_valid hstep
  hosts labelled hlabelled :=
    trimString_host_of_valid (hvalid.edges labelled hlabelled)

end Sound

section Root

variable {text : AddressText} {root edged : List (String × Json)}
  {profile : SnapProfile}

theorem lookup_normalized {name : String}
    (hname : name ≠ "transport_preferences") :
    (applyChanges (rootChanges text) (withPreferences edged)).lookup name =
      (edged.lookup name).map (((rootChanges text).lookup name).getD id) := by
  rw [lookup_applyChanges (rootChanges_nodup text), lookup_withPreferences,
    if_neg hname]

theorem lookup_normalized_preferences :
    (applyChanges (rootChanges text) (withPreferences edged)).lookup
        "transport_preferences" =
      some (normalizePreferences (nullTo (.object [])
        ((edged.lookup "transport_preferences").getD (.object [])))) := by
  rw [lookup_applyChanges (rootChanges_nodup text), lookup_withPreferences,
    if_pos rfl]
  rfl

theorem mem_keys_withPreferences {key : String}
    (hkey : key ∈ (withPreferences edged).map Prod.fst) :
    key = "transport_preferences" ∨ key ∈ edged.map Prod.fst := by
  rw [withPreferences] at hkey
  split at hkey
  · exact .inr hkey
  · exact mem_keys_insert.mp hkey

theorem directs_of_document (haddresses : PlainAddresses text)
    {value : Option Json} {endpoints : List DirectEndpoint}
    (hread : defaulted (readList readDirectEndpoint) [] (value.map fun value =>
      normalizeCandidateList text false (nullTo (.array []) value)) =
        some endpoints)
    (hsound : ∀ endpoint ∈ endpoints, DirectSound text endpoint) :
    ((∀ endpoint ∈ endpoints, Unchanged (candidateChanges text)
        fun name => endpoint.members.lookup name) ∧
      (endpoints.map directKey).Nodup) ↔
      (∀ items, value = some (.array items) → ∀ item ∈ items,
        entrySettled (candidateChanges text) directEndpointFields item) ∧
      ∀ items, value = some (.array items) →
        items.Pairwise (RepeatsKnown text) := by
  cases value with
  | none =>
      rw [← Option.some.inj hread]
      exact iff_of_true ⟨List.forall_mem_nil _, List.nodup_nil⟩
        ⟨nofun, nofun⟩
  | some old =>
      cases old with
      | null =>
          rw [← Option.some.inj hread]
          exact iff_of_true ⟨List.forall_mem_nil _, List.nodup_nil⟩
            ⟨nofun, nofun⟩
      | array items =>
          have hunchanged := unchanged_directs_iff haddresses hread hsound
          have hkeys := nodup_directKeys_iff hread
          simp only [List.not_mem_nil, not_false_eq_true, implies_true,
            and_true, false_imp_iff] at hkeys
          rw [hunchanged, hkeys]
          simp only [Option.some.injEq, Json.array.injEq, forall_eq']
      | _ => cases hread

theorem bridges_of_document (haddresses : PlainAddresses text)
    {value : Option Json} {bridges : List Bridge}
    (hread : defaulted (readList readBridge) [] (value.map fun value =>
      normalizeCandidateList text true (nullTo (.array []) value)) =
        some bridges)
    (hsound : ∀ bridge ∈ bridges, BridgeSound text bridge) :
    (∀ bridge ∈ bridges, Unchanged (candidateChanges text)
        fun name => bridge.members.lookup name) ↔
      ∀ items, value = some (.array items) → ∀ item ∈ items,
        entrySettled (candidateChanges text) bridgeFields item := by
  cases value with
  | none =>
      rw [← Option.some.inj hread]
      exact iff_of_true (List.forall_mem_nil _) nofun
  | some old =>
      cases old with
      | null =>
          rw [← Option.some.inj hread]
          exact iff_of_true (List.forall_mem_nil _) nofun
      | array items =>
          rw [unchanged_bridges_iff haddresses hread hsound]
          simp only [Option.some.injEq, Json.array.injEq, forall_eq']
      | _ => cases hread

theorem preferences_of_document {value : Option Json}
    {preferences : TransportPreferences}
    (hread : readPreferences (normalizePreferences (nullTo (.object [])
      (value.getD (.object [])))) = some preferences) :
    normalizeOrder (preferences.adapterOrder.map .string) =
        preferences.adapterOrder.map .string ↔
      ∀ old, value = some old → preferencesSettled old := by
  rw [preferencesSettled_iff hread]
  cases value with
  | none => exact iff_of_true trivial nofun
  | some old =>
      rw [Option.getD_some]
      constructor
      · rintro hsettled other hsame
        rw [← Option.some.inj hsame]
        cases old <;> exact hsettled
      · intro hsettled
        have hold := hsettled old rfl
        cases old <;> exact hold

theorem trimString_of_required {field : Option Json} {value : String}
    (hread : required Json.asString (field.map trimString) = some value) :
    trimString (.string value) = .string value := by
  obtain ⟨old, -, hold⟩ :=
    Option.map_eq_some_iff.mp (required_string_iff.mp hread)
  rw [← hold]
  exact trimString_trimString old

theorem trimString_of_defaulted {field : Option Json} {start value : String}
    (hstart : trim start = start ∧ start ≠ "")
    (hread : defaulted Json.asString start (field.map trimString) =
      some value) :
    trimString (.string value) = .string value := by
  cases field with
  | none =>
      rw [← Option.some.inj hread]
      exact trimString_of_trimmed hstart.1 hstart.2
  | some old => exact @trimString_of_required (some old) _ hread

/-- What the normalisation leaves alone of a profile that is written. -/
structure WrittenSettled (text : AddressText) (profile : SnapProfile) :
    Prop where
  directs : ∀ endpoint ∈ profile.directEndpoints,
    Unchanged (candidateChanges text) fun name => endpoint.members.lookup name
  keys : (profile.directEndpoints.map directKey).Nodup
  bridges : ∀ bridge ∈ profile.bridges,
    Unchanged (candidateChanges text) fun name => bridge.members.lookup name
  edges : ∀ labelled ∈ profile.edgeProfiles,
    Unchanged edgeChanges fun name => labelled.2.members.lookup name
  preferences : normalizeOrder
      (profile.transportPreferences.adapterOrder.map .string) =
    profile.transportPreferences.adapterOrder.map .string

/-- What is known of a profile from the document it was read from. -/
structure FromDocument (profile : SnapProfile) : Prop where
  name : trimString (.string profile.profileName) =
    .string profile.profileName
  peer : trimString (.string profile.peerAlias) = .string profile.peerAlias
  edges : EdgesInOrder profile.edgeProfiles

theorem settled_of_document (haddresses : PlainAddresses text)
    (hsound : ProfileSound text profile)
    (hedged : normalizeRootEdges root = .ok edged)
    (hread : fromValue (.object (applyChanges (rootChanges text)
      (withPreferences edged))) = some profile) :
    FromDocument profile ∧
      (WrittenSettled text profile ↔ Settled text root) := by
  obtain ⟨field, hfield, hof⟩ := Option.bind_eq_some_iff.mp hread
  have hreads := ofFields_eq_some_iff.mp hof
  rw [eq_lookup_of_structOf hfield] at hreads
  have hlookup : ∀ name, name ≠ "transport_preferences" →
      name ≠ "edge_profiles" →
      (applyChanges (rootChanges text) (withPreferences edged)).lookup name =
        (root.lookup name).map (((rootChanges text).lookup name).getD id) := by
    intro name hname hother
    rw [lookup_normalized hname, lookup_normalizeRootEdges hedged hother]
  have hname := hreads.profileName
  have hpeer := hreads.peerAlias
  have hdirects := hreads.directEndpoints
  have hbridges := hreads.bridges
  have hedges := hreads.edgeProfiles
  have hpreferences := hreads.transportPreferences
  rw [hlookup _ (by decide) (by decide)] at hname hpeer hdirects hbridges
  rw [lookup_normalized (by decide)] at hedges
  rw [lookup_normalized_preferences,
    lookup_normalizeRootEdges hedged (by decide)] at hpreferences
  have hunmapped : defaulted readEdges [] (edged.lookup "edge_profiles") =
      some profile.edgeProfiles := by
    rw [← hedges]
    exact congrArg _ Option.map_id_apply.symm
  obtain ⟨horder, hsettled⟩ :=
    edges_of_document hedged hunmapped hsound.hosts
  refine ⟨⟨trimString_of_defaulted (by decide) hname,
    trimString_of_required hpeer, horder⟩, ?_⟩
  have hdirect := directs_of_document haddresses hdirects hsound.directs
  have hbridge := bridges_of_document haddresses hbridges hsound.bridges
  have hpreference := preferences_of_document hpreferences
  constructor
  · rintro ⟨h1, h2, h3, h4, h5⟩
    obtain ⟨hentries, hrepeats⟩ := hdirect.mp ⟨h1, h2⟩
    exact ⟨hsettled.mp h4, hentries, hrepeats, hbridge.mp h3,
      hpreference.mp h5⟩
  · rintro ⟨hedges, hentries, hrepeats, hbridges, hpreferences⟩
    obtain ⟨h1, h2⟩ := hdirect.mpr ⟨hentries, hrepeats⟩
    exact ⟨h1, h2, hbridge.mpr hbridges, hsettled.mpr hedges,
      hpreference.mpr hpreferences⟩

/-- The edge profiles as they come out of the normalisation of what is
written. -/
def edgesWritten (profile : SnapProfile) : Json :=
  .object (profile.edgeProfiles.map fun labelled =>
    (labelled.1, normalizeEdge (.ofMembers labelled.2.members)))

theorem normalizeRootEdges_written (hdocument : FromDocument profile) :
    normalizeRootEdges (ofEntries profile.members) =
      .ok (insert "edge_profiles" (edgesWritten profile)
        (ofEntries profile.members)) := by
  have hkeys : profile.members.map Prod.fst = profileFields := rfl
  have hnodup : profileFields.Nodup := by decide
  have hlookup : (ofEntries profile.members).lookup "edge_profiles" =
      some (.ofMembers (profile.edgeProfiles.map fun labelled =>
        (labelled.1, .ofMembers labelled.2.members))) :=
    lookup_ofEntries (hkeys ▸ hnodup) _
  have hnormal := normalizeEdgeProfiles_written hdocument.edges
  rw [normalizeRootEdges, hlookup]
  exact bind_eq_ok.mpr ⟨_, hnormal, rfl⟩

/-- The members of the root as they come out of the normalisation of what is
written. -/
def writtenRoot (text : AddressText) (profile : SnapProfile) :
    List (String × Json) :=
  applyChanges (rootChanges text) (withPreferences
    (insert "edge_profiles" (edgesWritten profile)
      (ofEntries profile.members)))

theorem lookup_written {name : String}
    (hname : name ≠ "transport_preferences")
    (hother : name ≠ "edge_profiles") :
    (writtenRoot text profile).lookup name =
      (profile.members.lookup name).map
        (((rootChanges text).lookup name).getD id) := by
  have hkeys : profile.members.map Prod.fst = profileFields := rfl
  have hnodup : profileFields.Nodup := by decide
  rw [writtenRoot, lookup_normalized hname, lookup_insert, if_neg hother,
    lookup_ofEntries (hkeys ▸ hnodup)]

theorem lookup_written_version :
    (writtenRoot text profile).lookup "version" =
      some (.ofUInt32 profile.version) := by
  rw [lookup_written (by decide) (by decide)]
  rfl

theorem lookup_written_name :
    (writtenRoot text profile).lookup "profile_name" =
      some (trimString (.string profile.profileName)) := by
  have hchange : (rootChanges text).lookup "profile_name" = some trimString :=
    rfl
  have hmember : profile.members.lookup "profile_name" =
      some (.string profile.profileName) :=
    rfl
  rw [lookup_written (by decide) (by decide), hchange, hmember,
    Option.getD_some, Option.map_some]

theorem lookup_written_peer :
    (writtenRoot text profile).lookup "peer_alias" =
      some (trimString (.string profile.peerAlias)) := by
  have hchange : (rootChanges text).lookup "peer_alias" = some trimString :=
    rfl
  have hmember : profile.members.lookup "peer_alias" =
      some (.string profile.peerAlias) :=
    rfl
  rw [lookup_written (by decide) (by decide), hchange, hmember,
    Option.getD_some, Option.map_some]

theorem lookup_written_timeout :
    (writtenRoot text profile).lookup "connect_timeout_sec" =
      some (.ofBinary64 profile.connectTimeoutSec) := by
  rw [lookup_written (by decide) (by decide)]
  rfl

theorem lookup_written_directs :
    (writtenRoot text profile).lookup "direct_endpoints" =
      some (.array (normalizeItems text false 0 []
        (profile.directEndpoints.map fun endpoint =>
          .ofMembers endpoint.members))) := by
  rw [lookup_written (by decide) (by decide)]
  rfl

theorem lookup_written_bridges :
    (writtenRoot text profile).lookup "bridges" =
      some (.array (normalizeItems text true 0 []
        (profile.bridges.map fun bridge => .ofMembers bridge.members))) := by
  rw [lookup_written (by decide) (by decide)]
  rfl

theorem lookup_written_retry :
    (writtenRoot text profile).lookup "retry_policy" =
      some (normalizeRetry (.ofMembers profile.retryPolicy.members)) := by
  rw [lookup_written (by decide) (by decide)]
  rfl

theorem lookup_written_edges :
    (writtenRoot text profile).lookup "edge_profiles" =
      some (edgesWritten profile) := by
  rw [writtenRoot, lookup_normalized (by decide), lookup_insert, if_pos rfl]
  rfl

theorem lookup_written_preferences :
    (writtenRoot text profile).lookup "transport_preferences" =
      some (normalizePreferences
        (.ofMembers profile.transportPreferences.members)) := by
  have hkeys : profile.members.map Prod.fst = profileFields := rfl
  have hnodup : profileFields.Nodup := by decide
  rw [writtenRoot, lookup_normalized_preferences, lookup_insert,
    if_neg (by decide), lookup_ofEntries (hkeys ▸ hnodup)]
  rfl

theorem writtenRoot_known :
    ∀ key ∈ (writtenRoot text profile).map Prod.fst, key ∈ profileFields := by
  have hkeys : profile.members.map Prod.fst = profileFields := rfl
  intro key hkey
  rw [writtenRoot, keys_applyChanges] at hkey
  rcases mem_keys_withPreferences hkey with rfl | hkey
  · decide
  · rcases mem_keys_insert.mp hkey with rfl | hkey
    · decide
    · exact hkeys ▸ mem_keys_ofEntries.mp hkey

theorem lowercaseString_snapModeName (mode : SnapMode) :
    lowercaseString (.string (snapModeName mode)) =
      .string (snapModeName mode) := by
  cases mode <;> exact lowercaseString_default (by decide)

theorem lookup_written_mode :
    (writtenRoot text profile).lookup "mode" =
      some (.string (snapModeName profile.mode)) := by
  rw [lookup_written (by decide) (by decide)]
  exact congrArg some (lowercaseString_snapModeName profile.mode)

theorem reads_written_iff (hsound : ProfileSound text profile)
    (hdocument : FromDocument profile) :
    (profile.Reads fun name => (writtenRoot text profile).lookup name) ↔
      WrittenSettled text profile := by
  have hfinite : ∀ endpoint ∈ profile.directEndpoints,
      FiniteTimeout endpoint.timeoutSec :=
    fun endpoint hendpoint => (hsound.directs endpoint hendpoint).1
  have hdirects := @normalizeItems_directs_iff text 0 [] _ hfinite
  have hbridges := @normalizeItems_bridges_iff text 0 [] _ hsound.bridges
  simp only [List.not_mem_nil, not_false_eq_true, implies_true,
    and_true] at hdirects
  constructor
  · intro hreads
    have hdirect := hreads.directEndpoints
    have hbridge := hreads.bridges
    have hedges := hreads.edgeProfiles
    have hpreferences := hreads.transportPreferences
    rw [lookup_written_directs] at hdirect
    rw [lookup_written_bridges] at hbridge
    rw [lookup_written_edges] at hedges
    rw [lookup_written_preferences] at hpreferences
    obtain ⟨h1, h2⟩ := hdirects.mp hdirect
    exact ⟨h1, h2, hbridges.mp hbridge, readEdges_written_iff.mp hedges,
      readPreferences_written_iff.mp hpreferences⟩
  · intro hsettled
    refine ⟨?_, ?_, ?_, ?_, ?_, ?_, ?_, ?_, ?_, ?_⟩
    · rw [lookup_written_version, defaulted_some]
      exact readUInt32_ofUInt32 _
    · rw [lookup_written_name, defaulted_some]
      exact Json.asString_eq_some_iff.mpr hdocument.name
    · rw [lookup_written_mode, defaulted_some]
      exact readMode_snapModeName _
    · rw [lookup_written_peer, hdocument.peer]
      exact required_string_iff.mpr rfl
    · rw [lookup_written_timeout, defaulted_some]
      exact readBinary64_ofBinary64 hsound.timeout
    · rw [lookup_written_directs, defaulted_some]
      exact hdirects.mpr ⟨hsettled.directs, hsettled.keys⟩
    · rw [lookup_written_bridges, defaulted_some]
      exact hbridges.mpr hsettled.bridges
    · rw [lookup_written_retry, defaulted_some]
      exact readRetry_written hsound.retry
    · rw [lookup_written_edges, defaulted_some]
      exact readEdges_written_iff.mpr hsettled.edges
    · rw [lookup_written_preferences, defaulted_some]
      exact readPreferences_written_iff.mpr hsettled.preferences

/-- What is written of a profile is read again if and only if the
normalisation leaves it alone. -/
theorem fromValue_written_iff (hsound : ProfileSound text profile)
    (hdocument : FromDocument profile) :
    (∃ value, normalizePythonProfile text profile.toValue = .ok value ∧
      fromValue value = some profile) ↔
      WrittenSettled text profile := by
  have hfield := structOf_object (@writtenRoot_known text profile)
  have hedged := normalizeRootEdges_written hdocument
  rw [← reads_written_iff hsound hdocument,
    ← ofFields_eq_some_iff]
  constructor
  · rintro ⟨value, hnormal, hread⟩
    obtain ⟨edged, hother, rfl⟩ :=
      (normalizePythonProfile_eq_ok_iff text).mp hnormal
    obtain rfl := Except.ok.inj (hedged.symm.trans hother)
    rw [fromValue, ← writtenRoot, hfield,
      Option.bind_some] at hread
    exact hread
  · intro hread
    refine ⟨.object (writtenRoot text profile),
      (normalizePythonProfile_eq_ok_iff text).mpr ⟨_, hedged, rfl⟩, ?_⟩
    rw [fromValue, hfield, Option.bind_some]
    exact hread

end Root

section Parse

variable {codec : ProfileCodec} {bytes : Bytes} {format : ProfileFormat}
  {profile : SnapProfile}

theorem parse_eq_ok_iff : SnapProfile.parse codec bytes format =
    .ok profile ↔ ∃ document value,
      codec.document bytes format = .ok document ∧
      normalizePythonProfile codec.text.addresses document = .ok value ∧
      fromValue value = some profile ∧
      profile.validate codec.text = .ok () := by
  simp only [SnapProfile.parse, @bind_eq_ok _ Json, @bind_eq_ok _ SnapProfile,
    then_eq_ok, valueOr_eq_ok_iff, pure_eq_ok]
  constructor
  · rintro ⟨document, hdocument, value, hvalue, _, hread, hvalid, rfl⟩
    exact ⟨document, value, hdocument, hvalue, hread, hvalid⟩
  · rintro ⟨document, value, hdocument, hvalue, hread, hvalid⟩
    exact ⟨document, hdocument, value, hvalue, _, hread, hvalid, rfl⟩

/-- The document that is written of a profile. -/
theorem document_written
    (hfaithful : codec.readJson (codec.text.profileJson profile) =
      some profile.toValue)
    (hsize : (textBytes (codec.text.profileJson profile)).length ≤
      maxProfileBytes) :
    codec.document (textBytes (codec.text.profileJson profile)) .json =
      .ok profile.toValue := by
  simp only [ProfileCodec.document, then_eq_ok, @bind_eq_ok _ String,
    require_eq_ok_iff, valueOr_eq_ok_iff]
  exact ⟨hsize, _, fromUTF8?_textBytes _, hfaithful⟩

/-- A profile that was read and is written comes back, with its hash, if and
only if the document it was read from is settled. -/
theorem parse_written_iff
    (haddresses : PlainAddresses codec.text.addresses)
    (hparse : SnapProfile.parse codec bytes format = .ok profile)
    (hfaithful : codec.readJson (codec.text.profileJson profile) =
      some profile.toValue)
    (hsize : (textBytes (codec.text.profileJson profile)).length ≤
      maxProfileBytes) :
    ∃ root, codec.document bytes format = .ok (.object root) ∧
      ((∃ again, SnapProfile.parse codec
            (textBytes (codec.text.profileJson profile)) .json = .ok again ∧
          again = profile ∧
          again.profileHash codec.text = profile.profileHash codec.text) ↔
        Settled codec.text.addresses root) := by
  obtain ⟨document, value, hdocument, hvalue, hread, hvalid⟩ :=
    parse_eq_ok_iff.mp hparse
  have hsound := (validate_eq_ok_iff.mp hvalid).sound
  cases document with
  | object root =>
      refine ⟨root, hdocument, ?_⟩
      obtain ⟨edged, hedged, rfl⟩ :=
        (normalizePythonProfile_eq_ok_iff _).mp hvalue
      obtain ⟨hfrom, hsettled⟩ :=
        settled_of_document haddresses hsound hedged hread
      rw [← hsettled, ← fromValue_written_iff hsound hfrom]
      have hagain := document_written hfaithful hsize
      constructor
      · rintro ⟨again, hparse, rfl, -⟩
        obtain ⟨written, value, hwritten, hnormal, hread, -⟩ :=
          parse_eq_ok_iff.mp hparse
        obtain rfl := Except.ok.inj (hagain.symm.trans hwritten)
        exact ⟨value, hnormal, hread⟩
      · rintro ⟨value, hnormal, hread⟩
        exact ⟨profile, parse_eq_ok_iff.mpr
          ⟨_, value, hagain, hnormal, hread, hvalid⟩, rfl, rfl⟩
  | _ => cases hvalue

end Parse

namespace SnapWitness

/-- A document with these fields behind its only edge. -/
def notesText (fields : String) : String :=
  "\x7b\"peer_alias\":\"peer1\",\"edge_profiles\":\x7b\"edge\"" ++
  ":\x7b\"host\":\"127.0.0.4\",\"port\":443" ++ fields ++ "\x7d\x7d\x7d"

def notesDocument (fields : List (String × Json)) : Json :=
  .object [("edge_profiles", .object [("edge", .object
    ([("host", .string "127.0.0.4")] ++ fields ++
      [("port", .number (.posInt 443))]))]),
    ("peer_alias", .string "peer1")]

def notesProfile (notes : String) : SnapProfile where
  version := 1
  profileName := "default"
  mode := .auto
  peerAlias := "peer1"
  connectTimeoutSec := defaultConnectTimeout
  directEndpoints := []
  bridges := []
  retryPolicy := .default
  edgeProfiles := [("edge", ⟨"127.0.0.4", 443, true, notes⟩)]
  transportPreferences := .default

def writtenText (notes : String) : String :=
  "\x7b\"version\":1,\"profile_name\":\"default\",\"mode\":\"auto" ++
  "\",\"peer_alias\":\"peer1\",\"connect_timeout_sec\":8.0,\"direc" ++
  "t_endpoints\":[],\"bridges\":[],\"retry_policy\":\x7b\"rounds\":" ++
  "1,\"backoff_base_sec\":0.6,\"backoff_max_sec\":8.0,\"jitter_rati" ++
  "o\":0.15,\"round_order\":\"stable\",\"shuffle_seed\":null,\"max_" ++
  "total_attempts\":0,\"max_elapsed_sec\":0.0\x7d,\"edge_profiles\"" ++
  ":\x7b\"edge\":\x7b\"host\":\"127.0.0.4\",\"port\":443,\"tls_req" ++
  "uired\":true,\"notes\":\"" ++ notes ++ "\"\x7d\x7d,\"transport_pre" ++
  "ferences\":\x7b\"adapter_order\":[\"direct-tcp\",\"bridge-onion-" ++
  "tcp\",\"bridge-tls\",\"bridge-ws\",\"edge-relay\",\"shroud-tcp\"" ++
  ",\"mesh-dtn-local\",\"mule-usb\"]\x7d\x7d"

/-- The texts of two documents and of their profiles. -/
def texts : List String :=
  [notesText "", notesText ",\"notes\":\"front\"", writtenText "",
    writtenText "front"]

/-- What they read as. -/
def documents : List Json :=
  [notesDocument [], notesDocument [("notes", .string "front")],
    (notesProfile "").toValue, (notesProfile "front").toValue]

def notesCodec : ProfileCodec where
  text := {
    addresses := localAddresses
    profileJson profile := writtenText
      ((profile.edgeProfiles.map fun entry => entry.2.notes).headD "")
    valueJson _ := ""
    sha256 _ := ⟨bigEndian 32
      0x1a31c2a1feba2b9ca174abed780f0f89a303893912cbeddf45c45483773973b3,
      by simp⟩ }
  readJson text := documents[texts.idxOf text]?
  readToml _ := none

theorem plainAddresses : PlainAddresses localAddresses where
  readBack := by
    intro value ip hparse
    simp only [localAddresses] at hparse ⊢
    split at hparse
    · rw [← Option.some.inj hparse]
      decide
    · split at hparse
      · rw [← Option.some.inj hparse]
        decide
      · cases hparse
  plain := by
    intro value ip _
    simp only [localAddresses]
    split <;> simp [isWhitespace]

theorem validate_notesProfile {notes : String}
    (hnotes : notes ∈ ["", "front"]) :
    (notesProfile notes).validate notesCodec.text = .ok () := by
  rw [List.mem_pair] at hnotes
  rcases hnotes with rfl | rfl <;> exact validate_eq_ok_iff.mpr {
    version := rfl
    name := by decide +kernel
    peer := by decide +kernel
    timeout := by decide +kernel
    retry := by decide +kernel
    mode := by decide
    directCount := by decide
    bridgeCount := by decide
    order := by decide +kernel
    bridges := ⟨[], rfl⟩
    endpoints := by decide
    edges := by decide +kernel
    graph := validateGraph_eq_ok_iff.mpr
      ⟨by decide, by decide, not_transGen_of_lt (by decide)⟩ }

theorem toOption_eq_some_iff {E A : Type} {result : Except E A} {value : A} :
    result.toOption = some value ↔ result = .ok value := by
  cases result <;> simp [Except.toOption]

theorem readJson_text {text : String} (index : Nat)
    (hindex : texts.idxOf text = index) :
    notesCodec.readJson text = documents[index]? := by
  rw [← hindex]
  rfl

/-- What is read from one of the texts, normalised and valid, is the profile. -/
theorem parse_text {text : String} (index : Nat) {document : Json}
    {notes : String}
    (htext : (textBytes text).length ≤ maxProfileBytes ∧
      texts.idxOf text = index)
    (hdocument : documents[index]? = some document)
    (hread : (normalizePythonProfile localAddresses document).toOption.bind
      fromValue = some (notesProfile notes))
    (hnotes : notes ∈ ["", "front"]) :
    SnapProfile.parse notesCodec (textBytes text) .json =
      .ok (notesProfile notes) := by
  obtain ⟨value, hvalue, hfrom⟩ := Option.bind_eq_some_iff.mp hread
  have hreads := (readJson_text index htext.2).trans hdocument
  have hdocument : notesCodec.document (textBytes text) .json =
      .ok document := by
    simp only [ProfileCodec.document, then_eq_ok, @bind_eq_ok _ String,
      require_eq_ok_iff, valueOr_eq_ok_iff]
    exact ⟨htext.1, _, fromUTF8?_textBytes _, hreads⟩
  exact parse_eq_ok_iff.mpr ⟨document, value, hdocument,
    toOption_eq_some_iff.mp hvalue, hfrom, validate_notesProfile hnotes⟩

/-- Notes that are missing are written as an empty text, which is turned into
null and not read. -/
theorem missing_notes_do_not_return :
    SnapProfile.parse notesCodec (textBytes (notesText "")) .json =
        .ok (notesProfile "") ∧
      notesCodec.readJson (notesCodec.text.profileJson (notesProfile "")) =
        some (notesProfile "").toValue ∧
      (textBytes (notesCodec.text.profileJson (notesProfile ""))).length ≤
        maxProfileBytes ∧
      ∀ again, SnapProfile.parse notesCodec
        (textBytes (notesCodec.text.profileJson (notesProfile ""))) .json ≠
          .ok again := by
  have hreads : notesCodec.readJson
      (notesCodec.text.profileJson (notesProfile "")) =
        some (notesProfile "").toValue := readJson_text 2 (by decide +kernel)
  have hlength : (textBytes (notesCodec.text.profileJson
      (notesProfile ""))).length ≤ maxProfileBytes := by
    decide +kernel
  refine ⟨parse_text 0 (by decide +kernel) rfl (by decide +kernel) (by decide),
    hreads, hlength, fun again hparse => ?_⟩
  have hnone : (normalizePythonProfile localAddresses
      (notesProfile "").toValue).toOption.bind fromValue = none := by
    decide +kernel
  obtain ⟨document, value, hdocument, hvalue, hread, -⟩ :=
    parse_eq_ok_iff.mp hparse
  have hwritten := document_written hreads hlength
  obtain rfl := Except.ok.inj (hwritten.symm.trans hdocument)
  have hsome := Option.bind_eq_some_iff.mpr
    ⟨value, toOption_eq_some_iff.mpr hvalue, hread⟩
  cases hnone.symm.trans hsome

/-- Where the notes are there, they return. -/
theorem parse_written_iff_notes : ∃ root,
    notesCodec.document (textBytes (notesText ",\"notes\":\"front\"")) .json =
        .ok (.object root) ∧
      Settled localAddresses root := by
  have hnotes : "front" ∈ ["", "front"] := by decide
  have hreads : notesCodec.readJson
      (notesCodec.text.profileJson (notesProfile "front")) =
        some (notesProfile "front").toValue := readJson_text 3 (by decide +kernel)
  have hlength : (textBytes (notesCodec.text.profileJson
      (notesProfile "front"))).length ≤ maxProfileBytes := by
    decide +kernel
  have hparse : SnapProfile.parse notesCodec
      (textBytes (notesText ",\"notes\":\"front\"")) .json =
        .ok (notesProfile "front") :=
    parse_text 1 (by decide +kernel) rfl (by decide +kernel) hnotes
  obtain ⟨root, hdocument, hiff⟩ :=
    parse_written_iff plainAddresses hparse hreads hlength
  exact ⟨root, hdocument, hiff.mp ⟨notesProfile "front", parse_text 3
    (by decide +kernel) rfl (by decide +kernel) hnotes, rfl, rfl⟩⟩

end SnapWitness

end Shph.SnapPath
