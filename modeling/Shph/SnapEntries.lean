/-
The entries of a profile that was read, written and read again: direct
endpoints and bridges come back if and only if the changes leave alone what is
written of them and no two direct endpoints have one key.
-/
import Shph.SnapWritten

namespace Shph.SnapPath

open ByteCodec Checked ControlPlane JsonTree OrderedTable

section Settled

/-- An entry in the form of a list has texts that no change would touch. -/
def entrySettled (changes : List (String × (Json → Json)))
    (names : List String) : Json → Prop
  | .array items => Unchanged changes fun name => items[names.idxOf name]?
  | _ => True

def isObject : Json → Bool
  | .object _ => true
  | _ => false

/-- The key of a direct endpoint, which an object has once it is changed. -/
def entryKey (text : AddressText) : Json → Option DirectKey
  | .object fields => directKeyOf fun name =>
      (applyChanges (candidateChanges text) fields).lookup name
  | .array items => directKeyOf fun name =>
      items[directEndpointFields.idxOf name]?
  | _ => none

/-- Two direct endpoints of one key are both objects, so that the second one
is left out. -/
def RepeatsKnown (text : AddressText) (left right : Json) : Prop :=
  ∀ key, entryKey text left = some key → entryKey text right = some key →
    isObject left = true ∧ isObject right = true

end Settled

section Entries

variable {text : AddressText}

theorem entrySettled_normalizeItem {changes : List (String × (Json → Json))}
    {names : List String} {isBridge : Bool} {index : Nat} {item : Json} :
    entrySettled changes names (normalizeItem text isBridge index item) ↔
      entrySettled changes names item := by
  cases item with
  | object fields => cases isBridge <;> exact Iff.rfl
  | _ => exact Iff.rfl

/-- What is written of an entry is settled if and only if the entry is; an
object was changed before. -/
theorem TextFields.settled_iff {A : Type}
    {changes : List (String × (Json → Json))} {names : List String}
    {ofFields : (String → Option Json) → Option A}
    {members : A → List (String × Json)} {default : String → Json}
    {valid : A → Prop} {value : A}
    (htexts : TextFields changes names ofFields members default valid)
    (hdefault : ∀ change ∈ changes,
      change.2 (default change.1) = default change.1)
    (hvalid : valid value) {item : Json}
    (hread : (structOf names item).bind ofFields = some value)
    (hobject : ∀ fields, item = .object fields →
      Unchanged changes fun name => fields.lookup name) :
    Unchanged changes (fun name => (members value).lookup name) ↔
      entrySettled changes names item := by
  obtain ⟨field, hfield, hof⟩ := Option.bind_eq_some_iff.mp hread
  cases item with
  | object fields =>
      rw [eq_lookup_of_structOf hfield] at hof
      exact iff_of_true (htexts.unchanged_written hdefault hvalid hof
        (hobject fields rfl)) trivial
  | array items =>
      have hnone : ∀ key ∉ names, field key = none :=
        fun key => structOf_none hfield
      rw [entrySettled, ← eq_getElem_of_structOf hfield]
      exact ⟨htexts.unchanged_read hvalid hnone hof,
        htexts.unchanged_written hdefault hvalid hof⟩
  | _ => cases hfield

end Entries

section Directs

variable {text : AddressText}

def directKey (endpoint : DirectEndpoint) : DirectKey :=
  (endpoint.transport, endpoint.ip, endpoint.port.toNat)

/-- What the checks of a direct endpoint are needed for here. -/
def DirectSound (text : AddressText) (endpoint : DirectEndpoint) : Prop :=
  FiniteTimeout endpoint.timeoutSec ∧
    (text.parseIp endpoint.ip).isSome = true

theorem directKeyOf_reads {field : String → Option Json}
    {endpoint : DirectEndpoint} (hreads : endpoint.Reads field) :
    directKeyOf field = some (directKey endpoint) := by
  have hip := required_string_iff.mp hreads.ip
  obtain ⟨port, hport, hnumber⟩ := Option.bind_eq_some_iff.mp hreads.port
  have htransport : ((field "transport").bind Json.asString).getD "tcp" =
      endpoint.transport := by
    have hread := hreads.transport
    cases hfield : field "transport" with
    | none =>
        rw [hfield] at hread
        exact Option.some.inj hread
    | some value =>
        rw [hfield] at hread
        rw [Option.bind_some, show value.asString = _ from hread]
        rfl
  obtain ⟨number, hbelow, hvalue⟩ := Option.map_eq_some_iff.mp hnumber
  cases port with
  | number port =>
      cases port with
      | posInt port =>
          rw [readBelow] at hbelow
          split at hbelow
          · rename_i hlt
            rw [directKeyOf, hip, hport, directKey, ← hvalue,
              ← Option.some.inj hbelow, UInt16.toNat_ofNat_of_lt' hlt,
              ← htransport]
          · cases hbelow
      | _ => cases hbelow
  | _ => cases hbelow

theorem entryKey_of_read {index : Nat} {item : Json}
    {endpoint : DirectEndpoint}
    (hread : readDirectEndpoint (normalizeItem text false index item) =
      some endpoint) :
    entryKey text item = some (directKey endpoint) := by
  obtain ⟨field, hfield, hof⟩ := Option.bind_eq_some_iff.mp hread
  have hkey := directKeyOf_reads
    (DirectEndpoint.ofFields_eq_some_iff.mp hof)
  cases item with
  | object fields =>
      rw [eq_lookup_of_structOf hfield] at hkey
      exact hkey
  | array items =>
      rw [eq_getElem_of_structOf hfield] at hkey
      exact hkey
  | _ => cases hfield

theorem repeatKey_object (index : Nat) (fields : List (String × Json)) :
    repeatKey false (normalizeItem text false index (.object fields)) =
      entryKey text (.object fields) :=
  rfl

theorem length_normalizeItems_le (text : AddressText) (isBridge : Bool)
    (index : Nat) (keys : List DirectKey) (items : List Json) :
    (normalizeItems text isBridge index keys items).length ≤
      items.length := by
  induction items generalizing index keys with
  | nil => exact Nat.le_refl _
  | cons item rest ih =>
      rw [normalizeItems]
      split
      · split
        · exact (ih _ _).trans (Nat.le_succ _)
        · exact Nat.succ_le_succ (ih _ _)
      · exact Nat.succ_le_succ (ih _ _)

/-- The ways the first of the items can go, given that those that stay are
read to direct endpoints. -/
theorem normalizeItems_cons {index : Nat} {keys : List DirectKey}
    {item : Json} {rest : List Json} {endpoints : List DirectEndpoint}
    (hread : (normalizeItems text false index keys (item :: rest)).mapM
      readDirectEndpoint = some endpoints) :
    (isObject item = true ∧ (∃ key ∈ keys, entryKey text item = some key) ∧
      (normalizeItems text false (index + 1) keys rest).mapM
        readDirectEndpoint = some endpoints) ∨
    ∃ first others,
      readDirectEndpoint (normalizeItem text false index item) =
        some first ∧
      entryKey text item = some (directKey first) ∧
      (isObject item = true → directKey first ∉ keys) ∧
      (normalizeItems text false (index + 1)
        (if isObject item then directKey first :: keys else keys)
        rest).mapM readDirectEndpoint = some others ∧
      endpoints = first :: others := by
  have hkept : ∀ later : List DirectKey,
      (normalizeItem text false index item ::
        normalizeItems text false (index + 1) later rest).mapM
          readDirectEndpoint = some endpoints →
      ∃ first others,
        readDirectEndpoint (normalizeItem text false index item) =
          some first ∧
        entryKey text item = some (directKey first) ∧
        (normalizeItems text false (index + 1) later rest).mapM
          readDirectEndpoint = some others ∧
        endpoints = first :: others := by
    intro later hread
    obtain ⟨first, others, hfirst, hothers, hsame⟩ :=
      mapM_cons_eq_some_iff.mp hread
    exact ⟨first, others, hfirst, entryKey_of_read hfirst, hothers,
      hsame.symm⟩
  rw [normalizeItems] at hread
  cases item with
  | object fields =>
      rw [repeatKey_object] at hread
      split at hread
      · rename_i key hkey
        split at hread
        · rename_i hmem
          exact .inl ⟨rfl, ⟨key, hmem, hkey⟩, hread⟩
        · rename_i hnew
          obtain ⟨first, others, hfirst, hentry, hothers, hsame⟩ :=
            hkept _ hread
          obtain rfl := Option.some.inj (hkey.symm.trans hentry)
          exact .inr ⟨first, others, hfirst, hentry, fun _ => hnew, hothers,
            hsame⟩
      · rename_i hnone
        obtain ⟨first, others, -, hentry, -⟩ := hkept _ hread
        cases hnone.symm.trans hentry
  | _ =>
      obtain ⟨first, others, hfirst, hentry, hothers, hsame⟩ := hkept _ hread
      exact .inr ⟨first, others, hfirst, hentry, nofun, hothers, hsame⟩

theorem unchanged_direct_iff (haddresses : PlainAddresses text) {index : Nat}
    {item : Json} {endpoint : DirectEndpoint}
    (hread : readDirectEndpoint (normalizeItem text false index item) =
      some endpoint)
    (hsound : DirectSound text endpoint) :
    Unchanged (candidateChanges text)
        (fun name => endpoint.members.lookup name) ↔
      entrySettled (candidateChanges text) directEndpointFields item := by
  rw [← entrySettled_normalizeItem]
  apply (DirectEndpoint.textFields text).settled_iff
    (directDefault_unchanged text) hsound.1 hread
  intro fields hfields
  obtain ⟨field, hfield, hof⟩ := Option.bind_eq_some_iff.mp hread
  have hip := required_string_iff.mp
    (DirectEndpoint.ofFields_eq_some_iff.mp hof).ip
  cases item with
  | object old =>
      rw [eq_lookup_of_structOf hfield] at hip
      rw [← Json.object.inj hfields]
      exact unchanged_applyChanges haddresses hip hsound.2
  | _ => cases hfields

/-- Each direct endpoint is settled in what is written of it if and only if
the items are. -/
theorem unchanged_directs_iff (haddresses : PlainAddresses text) {index : Nat}
    {keys : List DirectKey} {items : List Json}
    {endpoints : List DirectEndpoint}
    (hread : (normalizeItems text false index keys items).mapM
      readDirectEndpoint = some endpoints)
    (hsound : ∀ endpoint ∈ endpoints, DirectSound text endpoint) :
    (∀ endpoint ∈ endpoints, Unchanged (candidateChanges text)
      fun name => endpoint.members.lookup name) ↔
      ∀ item ∈ items,
        entrySettled (candidateChanges text) directEndpointFields item := by
  induction items generalizing index keys endpoints with
  | nil =>
      rw [← Option.some.inj hread]
      exact iff_of_true (List.forall_mem_nil _) (List.forall_mem_nil _)
  | cons item rest ih =>
      rw [List.forall_mem_cons]
      rcases normalizeItems_cons hread with ⟨hobject, -, hrest⟩ |
        ⟨first, others, hfirst, -, -, hothers, rfl⟩
      · have hsettled : entrySettled (candidateChanges text)
            directEndpointFields item := by
          cases item with
          | object fields => trivial
          | _ => cases hobject
        rw [ih hrest hsound]
        exact ⟨fun hall => ⟨hsettled, hall⟩, fun hall => hall.2⟩
      · rw [List.forall_mem_cons] at hsound
        rw [List.forall_mem_cons, ih hothers hsound.2]
        exact and_congr_left fun _ =>
          unchanged_direct_iff haddresses hfirst hsound.1

/-- The keys of the direct endpoints are those of the items, but for keys that
were seen before. -/
theorem mem_directKeys_iff {index : Nat} {keys : List DirectKey}
    {items : List Json} {endpoints : List DirectEndpoint}
    (hread : (normalizeItems text false index keys items).mapM
      readDirectEndpoint = some endpoints) {key : DirectKey}
    (hnew : key ∉ keys) :
    key ∈ endpoints.map directKey ↔
      ∃ item ∈ items, entryKey text item = some key := by
  induction items generalizing index keys endpoints with
  | nil =>
      rw [← Option.some.inj hread]
      simp
  | cons item rest ih =>
      rw [List.exists_mem_cons_iff]
      rcases normalizeItems_cons hread with
        ⟨-, ⟨seen, hseen, hentry⟩, hrest⟩ |
        ⟨first, others, -, hentry, hfresh, hothers, rfl⟩
      · have hother : entryKey text item ≠ some key := by
          rw [hentry]
          rintro hsame
          exact hnew (Option.some.inj hsame ▸ hseen)
        rw [ih hrest hnew]
        exact ⟨.inr, fun hor => hor.resolve_left hother⟩
      · rw [List.map_cons, List.mem_cons, hentry, Option.some.injEq]
        by_cases hsame : key = directKey first
        · exact iff_of_true (.inl hsame) (.inl hsame.symm)
        · have hlater : key ∉ if isObject item then directKey first :: keys
              else keys := by
            split
            · exact List.not_mem_cons_of_ne_of_not_mem hsame hnew
            · exact hnew
          rw [ih hothers hlater]
          exact or_congr_left (iff_of_false hsame (Ne.symm hsame))

theorem repeatsKnown_iff {left right : Json} {key : DirectKey}
    (hkey : entryKey text left = some key) :
    RepeatsKnown text left right ↔ (entryKey text right = some key →
      isObject left = true ∧ isObject right = true) := by
  constructor
  · intro hknown hright
    exact hknown key hkey hright
  · intro hknown other hleft hright
    obtain rfl := Option.some.inj (hkey.symm.trans hleft)
    exact hknown hright

/-- The direct endpoints have keys of their own if and only if items of one
key are objects. -/
theorem nodup_directKeys_iff {index : Nat} {keys : List DirectKey}
    {items : List Json} {endpoints : List DirectEndpoint}
    (hread : (normalizeItems text false index keys items).mapM
      readDirectEndpoint = some endpoints) :
    ((endpoints.map directKey).Nodup ∧
        ∀ endpoint ∈ endpoints, directKey endpoint ∉ keys) ↔
      items.Pairwise (RepeatsKnown text) ∧
        ∀ item ∈ items, isObject item = false → ∀ key ∈ keys,
          entryKey text item ≠ some key := by
  induction items generalizing index keys endpoints with
  | nil =>
      rw [← Option.some.inj hread]
      simp
  | cons item rest ih =>
      rw [List.pairwise_cons, List.forall_mem_cons]
      rcases normalizeItems_cons hread with
        ⟨hobject, ⟨seen, hseen, hentry⟩, hrest⟩ |
        ⟨first, others, -, hentry, hfresh, hothers, rfl⟩
      · rw [ih hrest]
        simp only [repeatsKnown_iff hentry, hobject]
        constructor
        · rintro ⟨hpair, hlists⟩
          refine ⟨⟨fun other hother hsame => ⟨trivial, ?_⟩, hpair⟩, nofun,
            hlists⟩
          by_contra hlist
          exact hlists other hother (Bool.eq_false_iff.mpr hlist) seen hseen
            hsame
        · rintro ⟨⟨-, hpair⟩, -, hlists⟩
          exact ⟨hpair, hlists⟩
      · have hrest := ih hothers
        rw [List.map_cons, List.nodup_cons, List.forall_mem_cons]
        simp only [repeatsKnown_iff hentry, hentry]
        cases hobject : isObject item with
        | true =>
            simp only [hobject, if_true, List.mem_cons, not_or,
              forall_eq_or_imp] at hrest
            have hnew := hfresh hobject
            rw [List.mem_map]
            grind
        | false =>
            simp only [hobject, Bool.false_eq_true, if_false]
              at hrest hothers
            by_cases hseen : directKey first ∈ keys
            · exact iff_of_false (fun hall => hall.2.1 hseen)
                fun hall => hall.2.1 rfl (directKey first) hseen rfl
            · rw [mem_directKeys_iff hothers hseen]
              grind

/-- Direct endpoints are read again if and only if the changes leave them
alone and each has a key of its own. -/
theorem normalizeItems_directs_iff {index : Nat} {keys : List DirectKey}
    {endpoints : List DirectEndpoint}
    (hfinite : ∀ endpoint ∈ endpoints, FiniteTimeout endpoint.timeoutSec) :
    (normalizeItems text false index keys (endpoints.map fun endpoint =>
        .ofMembers endpoint.members)).mapM readDirectEndpoint =
      some endpoints ↔
      (∀ endpoint ∈ endpoints, Unchanged (candidateChanges text)
        fun name => endpoint.members.lookup name) ∧
      (endpoints.map directKey).Nodup ∧
      ∀ endpoint ∈ endpoints, directKey endpoint ∉ keys := by
  induction endpoints generalizing index keys with
  | nil => simp [normalizeItems]
  | cons endpoint rest ih =>
      rw [List.forall_mem_cons] at hfinite
      have hwritten : readDirectEndpoint (normalizeItem text false index
          (.ofMembers endpoint.members)) = some endpoint ↔
          Unchanged (candidateChanges text)
            fun name => endpoint.members.lookup name :=
        (DirectEndpoint.textFields text).read_applyChanges_iff hfinite.1
      rw [List.map_cons, List.forall_mem_cons, List.map_cons,
        List.nodup_cons, List.forall_mem_cons]
      constructor
      · intro hread
        rcases normalizeItems_cons hread with ⟨-, -, hrest⟩ |
          ⟨first, others, hfirst, -, hnew, hothers, hsame⟩
        · have hlength := length_of_mapM hrest
          have hle := length_normalizeItems_le text false (index + 1) keys
            (rest.map fun endpoint => .ofMembers endpoint.members)
          rw [← hlength, List.length_map] at hle
          exact absurd hle (Nat.not_succ_le_self _)
        · obtain ⟨rfl, rfl⟩ := List.cons.inj hsame
          rw [Json.ofMembers, isObject, if_pos rfl] at hothers
          obtain ⟨hunchanged, hnodup, hfresh⟩ := (ih hfinite.2).mp hothers
          refine ⟨⟨hwritten.mp hfirst, hunchanged⟩, ⟨?_, hnodup⟩, hnew rfl,
            fun other hother hmem => ?_⟩
          · intro hmem
            obtain ⟨other, hother, hkey⟩ := List.mem_map.mp hmem
            exact hfresh other hother (hkey ▸ List.mem_cons_self)
          · exact hfresh other hother (List.mem_cons_of_mem _ hmem)
      · rintro ⟨⟨hunchanged, hothers⟩, ⟨hother, hnodup⟩, hnew, hfresh⟩
        have hread := hwritten.mpr hunchanged
        have hkey : repeatKey false (normalizeItem text false index
            (.ofMembers endpoint.members)) = some (directKey endpoint) :=
          (repeatKey_object index _).trans (entryKey_of_read hread)
        have hlater := (@ih (index + 1) (directKey endpoint :: keys)
          hfinite.2).mpr ⟨hothers, hnodup, fun next hnext =>
            List.not_mem_cons_of_ne_of_not_mem
              (fun hsame => hother (hsame ▸ List.mem_map_of_mem hnext))
              (hfresh next hnext)⟩
        rw [normalizeItems, hkey]
        dsimp only
        rw [if_neg hnew]
        exact mapM_cons_eq_some_iff.mpr ⟨_, _, hread, hlater, rfl⟩

end Directs

section Bridges

variable {text : AddressText}

/-- What the checks of a bridge are needed for here. -/
structure BridgeSound (text : AddressText) (bridge : Bridge) : Prop where
  timeout : FiniteTimeout bridge.timeoutSec
  label : trim bridge.label ≠ ""
  ip : (text.parseIp bridge.ip).isSome = true

theorem BridgeSound.valid {bridge : Bridge}
    (hsound : BridgeSound text bridge) :
    FiniteTimeout bridge.timeoutSec ∧ bridge.label ≠ "" := by
  refine ⟨hsound.timeout, fun hempty => hsound.label ?_⟩
  rw [hempty]
  rfl

theorem read_bridge_iff {index : Nat} {bridge : Bridge}
    (hsound : BridgeSound text bridge) :
    readBridge (normalizeItem text true index (.ofMembers bridge.members)) =
      some bridge ↔
      Unchanged (candidateChanges text)
        fun name => bridge.members.lookup name := by
  have htexts := Bridge.textFields text
  have hchanged : ∀ name, (applyChanges (candidateChanges text)
      (ofEntries bridge.members)).lookup name =
        (bridge.members.lookup name).map
          (((candidateChanges text).lookup name).getD id) := by
    intro name
    rw [lookup_applyChanges htexts.changeNames,
      lookup_ofEntries (htexts.memberNames bridge)]
  have htrimmed : (applyChanges (candidateChanges text)
      (ofEntries bridge.members)).lookup "label" =
        some (.string (trim bridge.label)) := by
    rw [hchanged]
    exact congrArg some (if_neg hsound.label)
  have hlabel : bridgeLabel index (applyChanges (candidateChanges text)
      (ofEntries bridge.members)) = trim bridge.label := by
    rw [bridgeLabel, htrimmed]
    exact if_neg hsound.label
  have hkeys : ∀ key ∈ (insert "label" (.string (trim bridge.label))
      (applyChanges (candidateChanges text)
        (ofEntries bridge.members))).map Prod.fst, key ∈ bridgeFields := by
    intro key hkey
    rcases mem_keys_insert.mp hkey with rfl | hkey
    · decide
    · rw [keys_applyChanges] at hkey
      exact htexts.known bridge key (mem_keys_ofEntries.mp hkey)
  rw [Json.ofMembers, normalizeItem, if_pos rfl, hlabel, readBridge,
    structOf_object hkeys, Option.bind_some]
  apply htexts.read_changed_iff hsound.valid
  intro name
  rw [lookup_insert]
  by_cases hname : name = "label"
  · rw [if_pos hname, hname, ← hchanged, htrimmed]
  · rw [if_neg hname, hchanged]

theorem unchanged_bridge_iff (haddresses : PlainAddresses text) {index : Nat}
    {item : Json} {bridge : Bridge}
    (hread : readBridge (normalizeItem text true index item) = some bridge)
    (hsound : BridgeSound text bridge) :
    Unchanged (candidateChanges text)
        (fun name => bridge.members.lookup name) ↔
      entrySettled (candidateChanges text) bridgeFields item := by
  rw [← entrySettled_normalizeItem]
  apply (Bridge.textFields text).settled_iff (bridgeDefault_unchanged text)
    hsound.valid hread
  intro fields hfields
  obtain ⟨field, hfield, hof⟩ := Option.bind_eq_some_iff.mp hread
  have hip := required_string_iff.mp (Bridge.reads_of_ofFields hof).ip
  cases item with
  | object old =>
      rw [eq_lookup_of_structOf hfield] at hip
      dsimp only at hip
      rw [lookup_insert, if_neg (by decide)] at hip
      rw [← Json.object.inj hfields]
      intro change hchange value hvalue
      dsimp only at hvalue
      rw [lookup_insert] at hvalue
      by_cases hname : change.1 = "label"
      · have hlookup := lookup_of_mem candidateChanges_nodup hchange
        rw [hname] at hlookup
        have htrim : change.2 = trimString := (Option.some.inj hlookup).symm
        rw [if_pos hname] at hvalue
        rw [htrim, ← Option.some.inj hvalue]
        exact trimString_bridgeLabel index old
      · rw [if_neg hname] at hvalue
        exact unchanged_applyChanges haddresses hip hsound.ip change hchange
          value hvalue
  | _ => cases hfields

theorem normalizeItems_bridge (index : Nat) (keys : List DirectKey)
    (item : Json) (rest : List Json) :
    normalizeItems text true index keys (item :: rest) =
      normalizeItem text true index item ::
        normalizeItems text true (index + 1) keys rest := by
  have hnone : repeatKey true (normalizeItem text true index item) = none := by
    cases item <;> rfl
  rw [normalizeItems, hnone]

theorem unchanged_bridges_iff (haddresses : PlainAddresses text) {index : Nat}
    {keys : List DirectKey} {items : List Json} {bridges : List Bridge}
    (hread : (normalizeItems text true index keys items).mapM readBridge =
      some bridges)
    (hsound : ∀ bridge ∈ bridges, BridgeSound text bridge) :
    (∀ bridge ∈ bridges, Unchanged (candidateChanges text)
      fun name => bridge.members.lookup name) ↔
      ∀ item ∈ items,
        entrySettled (candidateChanges text) bridgeFields item := by
  induction items generalizing index bridges with
  | nil =>
      rw [← Option.some.inj hread]
      exact iff_of_true (List.forall_mem_nil _) (List.forall_mem_nil _)
  | cons item rest ih =>
      rw [normalizeItems_bridge] at hread
      obtain ⟨first, others, hfirst, hothers, rfl⟩ :=
        mapM_cons_eq_some_iff.mp hread
      rw [List.forall_mem_cons] at hsound
      rw [List.forall_mem_cons, List.forall_mem_cons, ih hothers hsound.2,
        unchanged_bridge_iff haddresses hfirst hsound.1]

/-- Bridges are read again if and only if the changes leave them alone. -/
theorem normalizeItems_bridges_iff {index : Nat} {keys : List DirectKey}
    {bridges : List Bridge}
    (hsound : ∀ bridge ∈ bridges, BridgeSound text bridge) :
    (normalizeItems text true index keys (bridges.map fun bridge =>
        .ofMembers bridge.members)).mapM readBridge = some bridges ↔
      ∀ bridge ∈ bridges, Unchanged (candidateChanges text)
        fun name => bridge.members.lookup name := by
  induction bridges generalizing index with
  | nil => simp [normalizeItems]
  | cons bridge rest ih =>
      rw [List.forall_mem_cons] at hsound
      rw [List.map_cons, normalizeItems_bridge, mapM_cons_eq_some_iff,
        List.forall_mem_cons, ← read_bridge_iff hsound.1, ← ih hsound.2]
      constructor
      · rintro ⟨first, others, hfirst, hothers, hsame⟩
        obtain ⟨rfl, rfl⟩ := List.cons.inj hsame
        exact ⟨hfirst, hothers⟩
      · rintro ⟨hfirst, hothers⟩
        exact ⟨_, _, hfirst, hothers, rfl⟩

end Bridges

end Shph.SnapPath
