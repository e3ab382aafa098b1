/-
Reading a profile: the normalised document is taken apart field by field, and
the profile is checked.  Writing a profile gives a tree again.  The readers of
the two text formats are parameters.
-/
import Shph.SnapNormalize

namespace Shph.SnapPath

open ByteCodec Checked ControlPlane JsonTree OrderedTable Json
section Reading

/-- The fields of a structure by name.  A structure is written as an object
with some of its fields and no others, or as a list of its first fields. -/
def structOf (names : List String) : Json → Option (String → Option Json)
  | .object members =>
      if ∀ name ∈ members.map Prod.fst, name ∈ names then
        some fun name => members.lookup name
      else none
  | .array items =>
      if items.length ≤ names.length then
        some fun name => items[names.idxOf name]?
      else none
  | _ => none

/-- A field that has to be there. -/
def required {A : Type} (read : Json → Option A) (field : Option Json) :
    Option A :=
  field.bind read

/-- A field that may be missing. -/
def defaulted {A : Type} (read : Json → Option A) (default : A)
    (field : Option Json) : Option A :=
  match field with
  | some value => read value
  | none => some default

def readBool : Json → Option Bool
  | .bool value => some value
  | _ => none

/-- An integer from zero on, below a limit. -/
def readBelow (limit : Nat) : Json → Option Nat
  | .number (.posInt value) =>
      if value.toNat < limit then some value.toNat else none
  | _ => none

def readUInt16 (value : Json) : Option UInt16 :=
  (readBelow (2 ^ 16) value).map UInt16.ofNat

def readUInt32 (value : Json) : Option UInt32 :=
  (readBelow (2 ^ 32) value).map UInt32.ofNat

def readUInt64 (value : Json) : Option UInt64 :=
  (readBelow (2 ^ 64) value).map UInt64.ofNat

/-- An integer stands for the nearest number. -/
def readBinary64 : Json → Option Binary64
  | .number (.posInt value) => some (.ofNat value.toNat)
  | .number (.negInt value) => some (.ofInt value)
  | .number (.float value) => some value
  | _ => none

/-- Null is a value that is not there. -/
def readOption {A : Type} (read : Json → Option A) : Json →
    Option (Option A)
  | .null => some none
  | value => (read value).map some

def readList {A : Type} (read : Json → Option A) : Json → Option (List A)
  | .array items => items.mapM read
  | _ => none

def readStrings : Json → Option (List String) := readList asString

/-- A variant without data, by its name or as an object of one member. -/
def readVariant {A : Type} (variants : List (String × A)) : Json → Option A
  | .string name => variants.lookup name
  | .object [(name, .null)] => variants.lookup name
  | _ => none

def snapModes : List (String × SnapMode) :=
  [("auto", .auto), ("direct-only", .directOnly),
    ("bridges-only", .bridgesOnly), ("onion-only", .onionOnly)]

def roundOrders : List (String × RoundOrder) :=
  [("stable", .stable), ("rotate", .rotate), ("shuffle", .shuffle)]

def directEndpointFields : List String :=
  ["ip", "port", "transport", "adapter", "tls_enabled", "sni", "edge_label",
    "priority", "weight", "timeout_sec", "allowed_fallback"]

/-- Only the address has no default. -/
def DirectEndpoint.ofFields (field : String → Option Json) :
    Option DirectEndpoint := do
  pure {
    ip := ← required asString (field "ip")
    port := ← required readUInt16 (field "port")
    transport := ← defaulted asString defaultTcp (field "transport")
    adapter := ← defaulted asString defaultDirectAdapter
      (field "adapter")
    tlsEnabled := ← defaulted readBool false (field "tls_enabled")
    sni := ← defaulted (readOption asString) none (field "sni")
    edgeLabel := ← defaulted (readOption asString) none
      (field "edge_label")
    priority := ← defaulted readUInt16 defaultPriority (field "priority")
    weight := ← defaulted readUInt16 defaultWeight (field "weight")
    timeoutSec := ← defaulted (readOption readBinary64) none
      (field "timeout_sec")
    allowedFallback := ← defaulted readStrings [] (field "allowed_fallback") }

def contractFields : List String :=
  ["owner", "service_id", "authorization_ref"]

def OperatorServiceContract.ofFields (field : String → Option Json) :
    Option OperatorServiceContract := do
  pure {
    owner := ← required asString (field "owner")
    serviceId := ← required asString (field "service_id")
    authorizationRef := ← required asString
      (field "authorization_ref") }

def readContract (value : Json) : Option OperatorServiceContract :=
  (structOf contractFields value).bind OperatorServiceContract.ofFields

def bridgeFields : List String :=
  ["label", "ip", "port", "key_file", "route_file", "transport", "adapter",
    "tls_enabled", "sni", "edge_label", "priority", "weight", "timeout_sec",
    "allowed_fallback", "tls_ca_file", "tls_cert_sha256", "ws_path",
    "shroud_profile", "operator_service_contract"]

/-- Nor has that of a bridge. -/
def Bridge.ofFields (field : String → Option Json) : Option Bridge := do
  pure {
    label := ← defaulted asString "" (field "label")
    ip := ← required asString (field "ip")
    port := ← required readUInt16 (field "port")
    keyFile := ← defaulted (readOption asString) none (field "key_file")
    routeFile := ← defaulted (readOption asString) none
      (field "route_file")
    transport := ← defaulted asString defaultOnionTransport
      (field "transport")
    adapter := ← defaulted asString defaultOnionAdapter
      (field "adapter")
    tlsEnabled := ← defaulted readBool false (field "tls_enabled")
    sni := ← defaulted (readOption asString) none (field "sni")
    edgeLabel := ← defaulted (readOption asString) none
      (field "edge_label")
    priority := ← defaulted readUInt16 defaultPriority (field "priority")
    weight := ← defaulted readUInt16 defaultWeight (field "weight")
    timeoutSec := ← defaulted (readOption readBinary64) none
      (field "timeout_sec")
    allowedFallback := ← defaulted readStrings [] (field "allowed_fallback")
    tlsCaFile := ← defaulted (readOption asString) none
      (field "tls_ca_file")
    tlsCertSha256 := ← defaulted (readOption asString) none
      (field "tls_cert_sha256")
    wsPath := ← defaulted (readOption asString) none (field "ws_path")
    shroudProfile := ← defaulted (readOption asString) none
      (field "shroud_profile")
    operatorServiceContract := ← defaulted (readOption readContract) none
      (field "operator_service_contract") }

def edgeFields : List String := ["host", "port", "tls_required", "notes"]

def EdgeProfile.ofFields (field : String → Option Json) :
    Option EdgeProfile := do
  pure {
    host := ← required asString (field "host")
    port := ← required readUInt16 (field "port")
    tlsRequired := ← defaulted readBool true (field "tls_required")
    notes := ← defaulted asString "" (field "notes") }

def retryFields : List String :=
  ["rounds", "backoff_base_sec", "backoff_max_sec", "jitter_ratio",
    "round_order", "shuffle_seed", "max_total_attempts", "max_elapsed_sec"]

/-- Everything has a default here. -/
def RetryPolicy.ofFields (field : String → Option Json) :
    Option RetryPolicy := do
  pure {
    rounds := ← defaulted readUInt32 defaultRounds (field "rounds")
    backoffBaseSec := ← defaulted readBinary64 defaultBackoffBase
      (field "backoff_base_sec")
    backoffMaxSec := ← defaulted readBinary64 defaultBackoffMax
      (field "backoff_max_sec")
    jitterRatio := ← defaulted readBinary64 defaultJitter
      (field "jitter_ratio")
    roundOrder := ← defaulted (readVariant roundOrders) .stable
      (field "round_order")
    shuffleSeed := ← defaulted (readOption readUInt64) none
      (field "shuffle_seed")
    maxTotalAttempts := ← defaulted readUInt32 0 (field "max_total_attempts")
    maxElapsedSec := ← defaulted readBinary64 ⟨0⟩ (field "max_elapsed_sec") }

def preferenceFields : List String := ["adapter_order"]

def TransportPreferences.ofFields (field : String → Option Json) :
    Option TransportPreferences := do
  pure {
    adapterOrder := ← defaulted readStrings defaultAdapterOrder
      (field "adapter_order") }

def readDirectEndpoint (value : Json) : Option DirectEndpoint :=
  (structOf directEndpointFields value).bind DirectEndpoint.ofFields

def readBridge (value : Json) : Option Bridge :=
  (structOf bridgeFields value).bind Bridge.ofFields

def readEdge (value : Json) : Option EdgeProfile :=
  (structOf edgeFields value).bind EdgeProfile.ofFields

def readRetry (value : Json) : Option RetryPolicy :=
  (structOf retryFields value).bind RetryPolicy.ofFields

def readPreferences (value : Json) : Option TransportPreferences :=
  (structOf preferenceFields value).bind TransportPreferences.ofFields

/-- The name of a member is the label. -/
def readLabelledEdge (member : String × Json) :
    Option (String × EdgeProfile) :=
  (readEdge member.2).map fun edge => (member.1, edge)

/-- The members of an object come in the order of their names. -/
def readEdges : Json → Option (List (String × EdgeProfile))
  | .object members => members.mapM readLabelledEdge
  | _ => none

def profileFields : List String :=
  ["version", "profile_name", "mode", "peer_alias", "connect_timeout_sec",
    "direct_endpoints", "bridges", "retry_policy", "edge_profiles",
    "transport_preferences"]

def SnapProfile.ofFields (field : String → Option Json) :
    Option SnapProfile := do
  pure {
    version := ← defaulted readUInt32 profileVersion (field "version")
    profileName := ← defaulted asString defaultProfileName
      (field "profile_name")
    mode := ← defaulted (readVariant snapModes) .auto (field "mode")
    peerAlias := ← required asString (field "peer_alias")
    connectTimeoutSec := ← defaulted readBinary64 defaultConnectTimeout
      (field "connect_timeout_sec")
    directEndpoints := ← defaulted (readList readDirectEndpoint) []
      (field "direct_endpoints")
    bridges := ← defaulted (readList readBridge) [] (field "bridges")
    retryPolicy := ← defaulted readRetry .default (field "retry_policy")
    edgeProfiles := ← defaulted readEdges [] (field "edge_profiles")
    transportPreferences := ← defaulted readPreferences .default
      (field "transport_preferences") }

/-- The profile a normalised document stands for. -/
def SnapProfile.fromValue (value : Json) : Option SnapProfile :=
  (structOf profileFields value).bind SnapProfile.ofFields

end Reading

section Writing

/-- The fields in the order in which they are serialized. -/
def DirectEndpoint.members (endpoint : DirectEndpoint) :
    List (String × Json) :=
  [("ip", .string endpoint.ip), ("port", .ofUInt16 endpoint.port),
    ("transport", .string endpoint.transport),
    ("adapter", .string endpoint.adapter),
    ("tls_enabled", .bool endpoint.tlsEnabled),
    ("sni", .ofOption .string endpoint.sni),
    ("edge_label", .ofOption .string endpoint.edgeLabel),
    ("priority", .ofUInt16 endpoint.priority),
    ("weight", .ofUInt16 endpoint.weight),
    ("timeout_sec", .ofOption .ofBinary64 endpoint.timeoutSec),
    ("allowed_fallback", .ofStrings endpoint.allowedFallback)]

def OperatorServiceContract.members (contract : OperatorServiceContract) :
    List (String × Json) :=
  [("owner", .string contract.owner),
    ("service_id", .string contract.serviceId),
    ("authorization_ref", .string contract.authorizationRef)]

/-- A contract that is not there is left out, other fields become null. -/
def Bridge.members (bridge : Bridge) : List (String × Json) :=
  [("label", .string bridge.label), ("ip", .string bridge.ip),
    ("port", .ofUInt16 bridge.port),
    ("key_file", .ofOption .string bridge.keyFile),
    ("route_file", .ofOption .string bridge.routeFile),
    ("transport", .string bridge.transport),
    ("adapter", .string bridge.adapter),
    ("tls_enabled", .bool bridge.tlsEnabled),
    ("sni", .ofOption .string bridge.sni),
    ("edge_label", .ofOption .string bridge.edgeLabel),
    ("priority", .ofUInt16 bridge.priority),
    ("weight", .ofUInt16 bridge.weight),
    ("timeout_sec", .ofOption .ofBinary64 bridge.timeoutSec),
    ("allowed_fallback", .ofStrings bridge.allowedFallback),
    ("tls_ca_file", .ofOption .string bridge.tlsCaFile),
    ("tls_cert_sha256", .ofOption .string bridge.tlsCertSha256),
    ("ws_path", .ofOption .string bridge.wsPath),
    ("shroud_profile", .ofOption .string bridge.shroudProfile)] ++
  match bridge.operatorServiceContract with
  | some contract =>
      [("operator_service_contract", .ofMembers contract.members)]
  | none => []

def EdgeProfile.members (edge : EdgeProfile) : List (String × Json) :=
  [("host", .string edge.host), ("port", .ofUInt16 edge.port),
    ("tls_required", .bool edge.tlsRequired), ("notes", .string edge.notes)]

def roundOrderName : RoundOrder → String
  | .stable => "stable"
  | .rotate => "rotate"
  | .shuffle => "shuffle"

def snapModeName : SnapMode → String
  | .auto => "auto"
  | .directOnly => "direct-only"
  | .bridgesOnly => "bridges-only"
  | .onionOnly => "onion-only"

def RetryPolicy.members (policy : RetryPolicy) : List (String × Json) :=
  [("rounds", .ofUInt32 policy.rounds),
    ("backoff_base_sec", .ofBinary64 policy.backoffBaseSec),
    ("backoff_max_sec", .ofBinary64 policy.backoffMaxSec),
    ("jitter_ratio", .ofBinary64 policy.jitterRatio),
    ("round_order", .string (roundOrderName policy.roundOrder)),
    ("shuffle_seed", .ofOption .ofUInt64 policy.shuffleSeed),
    ("max_total_attempts", .ofUInt32 policy.maxTotalAttempts),
    ("max_elapsed_sec", .ofBinary64 policy.maxElapsedSec)]

def TransportPreferences.members (preferences : TransportPreferences) :
    List (String × Json) :=
  [("adapter_order", .ofStrings preferences.adapterOrder)]

def SnapProfile.members (profile : SnapProfile) : List (String × Json) :=
  [("version", .ofUInt32 profile.version),
    ("profile_name", .string profile.profileName),
    ("mode", .string (snapModeName profile.mode)),
    ("peer_alias", .string profile.peerAlias),
    ("connect_timeout_sec", .ofBinary64 profile.connectTimeoutSec),
    ("direct_endpoints", .array (profile.directEndpoints.map fun endpoint =>
      .ofMembers endpoint.members)),
    ("bridges", .array (profile.bridges.map fun bridge =>
      .ofMembers bridge.members)),
    ("retry_policy", .ofMembers profile.retryPolicy.members),
    ("edge_profiles", .ofMembers (profile.edgeProfiles.map fun labelled =>
      (labelled.1, .ofMembers labelled.2.members))),
    ("transport_preferences",
      .ofMembers profile.transportPreferences.members)]

/-- What is serialized of a profile. -/
def SnapProfile.toValue (profile : SnapProfile) : Json :=
  .ofMembers profile.members

end Writing

section Values

variable {A : Type}

theorem mapM_cons_eq_some_iff {B : Type} {read : B → Option A} {item : B}
    {rest : List B} {results : List A} :
    (item :: rest).mapM read = some results ↔ ∃ first others,
      read item = some first ∧ rest.mapM read = some others ∧
        first :: others = results := by
  simp [List.mapM_cons, Option.bind_eq_some_iff]

/-- No item is passed over. -/
theorem length_of_mapM {B : Type} {read : B → Option A} {items : List B}
    {results : List A} (hread : items.mapM read = some results) :
    results.length = items.length := by
  induction items generalizing results with
  | nil =>
      rw [← Option.some.inj hread]
      rfl
  | cons item rest ih =>
      obtain ⟨first, others, -, hothers, rfl⟩ :=
        mapM_cons_eq_some_iff.mp hread
      rw [List.length_cons, List.length_cons, ih hothers]

/-- What is read is as the items are, if each of them is. -/
theorem forall_mapM_iff {B : Type} {read : B → Option A} {items : List B}
    {results : List A} (hread : items.mapM read = some results)
    {after : A → Prop} {before : B → Prop}
    (hitem : ∀ item ∈ items, ∀ result ∈ results,
      read item = some result → (after result ↔ before item)) :
    (∀ result ∈ results, after result) ↔ ∀ item ∈ items, before item := by
  induction items generalizing results with
  | nil =>
      rw [← Option.some.inj hread]
      exact iff_of_true (List.forall_mem_nil _) (List.forall_mem_nil _)
  | cons item rest ih =>
      obtain ⟨first, others, hfirst, hothers, rfl⟩ :=
        mapM_cons_eq_some_iff.mp hread
      have hrest := ih hothers fun item hitem' result hresult =>
        hitem item (List.mem_cons_of_mem _ hitem') result
          (List.mem_cons_of_mem _ hresult)
      rw [List.forall_mem_cons, List.forall_mem_cons, hrest,
        hitem item List.mem_cons_self first List.mem_cons_self hfirst]

/-- Items that are written come back if and only if each of them does. -/
theorem mapM_map_eq_some_iff {B : Type} {read : B → Option A}
    {write : A → B} {items : List A} :
    (items.map write).mapM read = some items ↔
      ∀ item ∈ items, read (write item) = some item := by
  induction items with
  | nil => exact iff_of_true rfl (List.forall_mem_nil _)
  | cons item rest ih =>
      rw [List.map_cons, mapM_cons_eq_some_iff, List.forall_mem_cons, ← ih]
      constructor
      · rintro ⟨first, others, hfirst, hothers, hsame⟩
        obtain ⟨rfl, rfl⟩ := List.cons.inj hsame
        exact ⟨hfirst, hothers⟩
      · rintro ⟨hfirst, hothers⟩
        exact ⟨item, rest, hfirst, hothers, rfl⟩

theorem readBelow_ofNat {limit value : Nat} (hvalue : value < limit)
    (hlimit : limit ≤ 2 ^ 64) :
    readBelow limit (.number (.posInt (UInt64.ofNat value))) =
      some value := by
  rw [readBelow, UInt64.toNat_ofNat_of_lt' (hvalue.trans_le hlimit),
    if_pos hvalue]

theorem readUInt16_ofUInt16 (value : UInt16) :
    readUInt16 (.ofUInt16 value) = some value := by
  rw [readUInt16, ofUInt16, readBelow_ofNat value.toNat_lt (by decide)]
  exact congrArg some (UInt16.ofNat_toNat)

theorem readUInt32_ofUInt32 (value : UInt32) :
    readUInt32 (.ofUInt32 value) = some value := by
  rw [readUInt32, ofUInt32, readBelow_ofNat value.toNat_lt (by decide)]
  exact congrArg some (UInt32.ofNat_toNat)

theorem readUInt64_ofUInt64 (value : UInt64) :
    readUInt64 (.ofUInt64 value) = some value := by
  rw [readUInt64, ofUInt64, readBelow, if_pos value.toNat_lt]
  exact congrArg some (UInt64.ofNat_toNat)

/-- A finite number is written as what it is. -/
theorem readBinary64_ofBinary64 {value : Binary64}
    (hfinite : value.isFinite = true) :
    readBinary64 (.ofBinary64 value) = some value := by
  rw [ofBinary64, if_pos hfinite]
  rfl

theorem readOption_ofOption {read : Json → Option A} {write : A → Json}
    {value : Option A} (hread : ∀ item ∈ value,
      write item ≠ .null ∧ read (write item) = some item) :
    readOption read (.ofOption write value) = some value := by
  cases value with
  | none => rfl
  | some item =>
      obtain ⟨hnull, hitem⟩ := hread item rfl
      rw [ofOption, readOption, hitem]
      · rfl
      · exact hnull

theorem readOption_ofString (value : Option String) :
    readOption asString (.ofOption .string value) = some value := by
  cases value <;> rfl

theorem readStrings_eq_some_iff {value : Json} {texts : List String} :
    readStrings value = some texts ↔ value = .ofStrings texts := by
  cases value with
  | array items =>
      rw [readStrings, readList, ofStrings, array.injEq]
      induction items generalizing texts with
      | nil => simp [eq_comm]
      | cons item rest ih =>
          rw [mapM_cons_eq_some_iff]
          constructor
          · rintro ⟨first, others, hfirst, hothers, rfl⟩
            rw [asString_eq_some_iff.mp hfirst, ih.mp hothers]
            rfl
          · intro hitems
            cases texts with
            | nil => cases hitems
            | cons first others =>
                rw [List.map_cons, List.cons.injEq] at hitems
                exact ⟨first, others,
                  asString_eq_some_iff.mpr hitems.1,
                  ih.mpr hitems.2, rfl⟩
  | _ => simp [readStrings, readList, ofStrings]

theorem readMode_snapModeName (mode : SnapMode) :
    readVariant snapModes (.string (snapModeName mode)) = some mode := by
  cases mode <;> decide

theorem readOrder_roundOrderName (order : RoundOrder) :
    readVariant roundOrders (.string (roundOrderName order)) =
      some order := by
  cases order <;> decide

end Values

section Fields

variable {field : Option Json} {default : Json}

@[simp] theorem defaulted_some {A : Type} (read : Json → Option A)
    (start : A) (value : Json) :
    defaulted read start (some value) = read value :=
  rfl

theorem required_string_iff {text : String} :
    required asString field = some text ↔
      field = some (.string text) := by
  cases field <;> simp [required]

/-- What a field holds, or what stands for it, is what is written. -/
theorem getD_of_required {text : String}
    (hread : required asString field = some text) :
    field.getD default = .string text := by
  rw [required_string_iff.mp hread]
  rfl

theorem getD_of_defaulted {start text : String}
    (hread : defaulted asString start field = some text) :
    field.getD (.string start) = .string text := by
  cases field with
  | none => exact congrArg string (Option.some.inj hread)
  | some value => exact asString_eq_some_iff.mp hread

theorem getD_of_option {text : Option String}
    (hread : defaulted (readOption asString) none field = some text) :
    field.getD .null = .ofOption .string text := by
  cases field with
  | none =>
      rw [← Option.some.inj hread]
      rfl
  | some value =>
      cases value with
      | null =>
          rw [← Option.some.inj hread]
          rfl
      | string value =>
          rw [← Option.some.inj hread]
          rfl
      | _ => cases hread

theorem getD_of_strings {texts : List String}
    (hread : defaulted readStrings [] field = some texts) :
    field.getD (.array []) = .ofStrings texts := by
  cases field with
  | none =>
      rw [← Option.some.inj hread]
      rfl
  | some value => exact readStrings_eq_some_iff.mp hread

theorem eq_lookup_of_structOf {names : List String}
    {members : List (String × Json)} {field : String → Option Json}
    (hfield : structOf names (.object members) = some field) :
    field = fun name => members.lookup name := by
  rw [structOf] at hfield
  split at hfield
  · exact (Option.some.inj hfield).symm
  · cases hfield

theorem eq_getElem_of_structOf {names : List String} {items : List Json}
    {field : String → Option Json}
    (hfield : structOf names (.array items) = some field) :
    field = fun name => items[names.idxOf name]? := by
  rw [structOf] at hfield
  split at hfield
  · exact (Option.some.inj hfield).symm
  · cases hfield

theorem length_le_of_structOf {names : List String} {items : List Json}
    {field : String → Option Json}
    (hfield : structOf names (.array items) = some field) :
    items.length ≤ names.length := by
  rw [structOf] at hfield
  split at hfield
  · assumption
  · cases hfield

theorem structOf_none {names : List String} {item : Json}
    {field : String → Option Json} (hfield : structOf names item = some field)
    {key : String} (hkey : key ∉ names) : field key = none := by
  cases item with
  | object members =>
      rw [structOf] at hfield
      split at hfield
      · rename_i hkeys
        rw [← Option.some.inj hfield]
        exact List.lookup_eq_none_iff.mpr fun entry hentry =>
          bne_iff_ne.mpr fun hsame => hkey
            (hkeys key (hsame ▸ List.mem_map_of_mem hentry))
      · cases hfield
  | array items =>
      rw [structOf] at hfield
      split at hfield
      · rename_i hlength
        rw [← Option.some.inj hfield]
        dsimp only
        rw [List.idxOf_eq_length hkey]
        exact List.getElem?_eq_none hlength
      · cases hfield
  | _ => cases hfield

theorem structOf_object {names : List String}
    {members : List (String × Json)}
    (hkeys : ∀ key ∈ members.map Prod.fst, key ∈ names) :
    structOf names (.object members) =
      some fun name => members.lookup name :=
  if_pos hkeys

end Fields

inductive ProfileFormat where
  | json
  | toml
deriving Repr, DecidableEq

/-- How texts are read and written; the reader of JSON rejects objects with
two members of one name. -/
structure ProfileCodec where
  text : SnapText
  readJson : String → Option Json
  readToml : String → Option Json

/-- The document that stands in a file. -/
def ProfileCodec.document (codec : ProfileCodec) (bytes : Bytes)
    (format : ProfileFormat) : Except SnapError Json := do
  require (bytes.length ≤ maxProfileBytes) .tooLarge
  let text ← valueOr (String.fromUTF8? ⟨bytes.toArray⟩)
    (.invalid "profile must be UTF-8")
  match format with
  | .json => valueOr (codec.readJson text) .json
  | .toml => valueOr (codec.readToml text) .toml

def SnapProfile.parse (codec : ProfileCodec) (bytes : Bytes)
    (format : ProfileFormat) : Except SnapError SnapProfile := do
  let value ← codec.document bytes format
  let value ← normalizePythonProfile codec.text.addresses value
  let profile ← valueOr (SnapProfile.fromValue value) .json
  profile.validate codec.text
  pure profile

end Shph.SnapPath
