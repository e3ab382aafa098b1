/-
What is written of a profile is read again, field by field, and what the
normalisation in between has to leave alone for that.
-/
import Shph.SnapReading

namespace Shph.SnapPath

open ByteCodec Checked ControlPlane JsonTree OrderedTable

section Reads

/-- The fields of a direct endpoint are read to its own. -/
structure DirectEndpoint.Reads (field : String → Option Json)
    (endpoint : DirectEndpoint) : Prop where
  ip : required Json.asString (field "ip") = some endpoint.ip
  port : required readUInt16 (field "port") = some endpoint.port
  transport : defaulted Json.asString defaultTcp (field "transport") =
    some endpoint.transport
  adapter : defaulted Json.asString defaultDirectAdapter (field "adapter") =
    some endpoint.adapter
  tlsEnabled : defaulted readBool false (field "tls_enabled") =
    some endpoint.tlsEnabled
  sni : defaulted (readOption Json.asString) none (field "sni") =
    some endpoint.sni
  edgeLabel : defaulted (readOption Json.asString) none
    (field "edge_label") = some endpoint.edgeLabel
  priority : defaulted readUInt16 defaultPriority (field "priority") =
    some endpoint.priority
  weight : defaulted readUInt16 defaultWeight (field "weight") =
    some endpoint.weight
  timeoutSec : defaulted (readOption readBinary64) none
    (field "timeout_sec") = some endpoint.timeoutSec
  allowedFallback : defaulted readStrings [] (field "allowed_fallback") =
    some endpoint.allowedFallback

theorem DirectEndpoint.ofFields_eq_some_iff {field : String → Option Json}
    {endpoint : DirectEndpoint} :
    DirectEndpoint.ofFields field = some endpoint ↔ endpoint.Reads field := by
  simp only [DirectEndpoint.ofFields, Option.bind_eq_bind,
    Option.bind_eq_some_iff, Option.pure_def, Option.some.injEq]
  constructor
  · rintro ⟨_, h1, _, h2, _, h3, _, h4, _, h5, _, h6, _, h7, _, h8, _, h9,
      _, h10, _, h11, rfl⟩
    exact ⟨h1, h2, h3, h4, h5, h6, h7, h8, h9, h10, h11⟩
  · rintro ⟨h1, h2, h3, h4, h5, h6, h7, h8, h9, h10, h11⟩
    exact ⟨_, h1, _, h2, _, h3, _, h4, _, h5, _, h6, _, h7, _, h8, _, h9,
      _, h10, _, h11, rfl⟩

/-- The fields of a bridge are read to its own. -/
structure Bridge.Reads (field : String → Option Json)
    (bridge : Bridge) : Prop where
  label : defaulted Json.asString "" (field "label") = some bridge.label
  ip : required Json.asString (field "ip") = some bridge.ip
  port : required readUInt16 (field "port") = some bridge.port
  keyFile : defaulted (readOption Json.asString) none (field "key_file") =
    some bridge.keyFile
  routeFile : defaulted (readOption Json.asString) none (field "route_file") =
    some bridge.routeFile
  transport : defaulted Json.asString defaultOnionTransport
    (field "transport") = some bridge.transport
  adapter : defaulted Json.asString defaultOnionAdapter (field "adapter") =
    some bridge.adapter
  tlsEnabled : defaulted readBool false (field "tls_enabled") =
    some bridge.tlsEnabled
  sni : defaulted (readOption Json.asString) none (field "sni") =
    some bridge.sni
  edgeLabel : defaulted (readOption Json.asString) none (field "edge_label") =
    some bridge.edgeLabel
  priority : defaulted readUInt16 defaultPriority (field "priority") =
    some bridge.priority
  weight : defaulted readUInt16 defaultWeight (field "weight") =
    some bridge.weight
  timeoutSec : defaulted (readOption readBinary64) none (field "timeout_sec") =
    some bridge.timeoutSec
  allowedFallback : defaulted readStrings [] (field "allowed_fallback") =
    some bridge.allowedFallback
  tlsCaFile : defaulted (readOption Json.asString) none (field "tls_ca_file") =
    some bridge.tlsCaFile
  tlsCertSha256 : defaulted (readOption Json.asString) none
    (field "tls_cert_sha256") = some bridge.tlsCertSha256
  wsPath : defaulted (readOption Json.asString) none (field "ws_path") =
    some bridge.wsPath
  shroudProfile : defaulted (readOption Json.asString) none
    (field "shroud_profile") = some bridge.shroudProfile
  operatorServiceContract : defaulted (readOption readContract) none
    (field "operator_service_contract") = some bridge.operatorServiceContract

theorem Bridge.reads_of_ofFields {field : String → Option Json}
    {bridge : Bridge} (hread : Bridge.ofFields field = some bridge) :
    bridge.Reads field := by
  rw [Bridge.ofFields] at hread
  obtain ⟨_, h1, hread⟩ := Option.bind_eq_some_iff.mp hread
  obtain ⟨_, h2, hread⟩ := Option.bind_eq_some_iff.mp hread
  obtain ⟨_, h3, hread⟩ := Option.bind_eq_some_iff.mp hread
  obtain ⟨_, h4, hread⟩ := Option.bind_eq_some_iff.mp hread
  obtain ⟨_, h5, hread⟩ := Option.bind_eq_some_iff.mp hread
  obtain ⟨_, h6, hread⟩ := Option.bind_eq_some_iff.mp hread
  obtain ⟨_, h7, hread⟩ := Option.bind_eq_some_iff.mp hread
  obtain ⟨_, h8, hread⟩ := Option.bind_eq_some_iff.mp hread
  obtain ⟨_, h9, hread⟩ := Option.bind_eq_some_iff.mp hread
  obtain ⟨_, h10, hread⟩ := Option.bind_eq_some_iff.mp hread
  obtain ⟨_, h11, hread⟩ := Option.bind_eq_some_iff.mp hread
  obtain ⟨_, h12, hread⟩ := Option.bind_eq_some_iff.mp hread
  obtain ⟨_, h13, hread⟩ := Option.bind_eq_some_iff.mp hread
  obtain ⟨_, h14, hread⟩ := Option.bind_eq_some_iff.mp hread
  obtain ⟨_, h15, hread⟩ := Option.bind_eq_some_iff.mp hread
  obtain ⟨_, h16, hread⟩ := Option.bind_eq_some_iff.mp hread
  obtain ⟨_, h17, hread⟩ := Option.bind_eq_some_iff.mp hread
  obtain ⟨_, h18, hread⟩ := Option.bind_eq_some_iff.mp hread
  obtain ⟨_, h19, hread⟩ := Option.bind_eq_some_iff.mp hread
  rw [← Option.some.inj hread]
  exact ⟨h1, h2, h3, h4, h5, h6, h7, h8, h9, h10, h11, h12, h13, h14, h15,
    h16, h17, h18, h19⟩

theorem Bridge.ofFields_of_reads {field : String → Option Json}
    {bridge : Bridge} (hreads : bridge.Reads field) :
    Bridge.ofFields field = some bridge := by
  obtain ⟨h1, h2, h3, h4, h5, h6, h7, h8, h9, h10, h11, h12, h13, h14, h15,
    h16, h17, h18, h19⟩ := hreads
  rw [Bridge.ofFields, h1, h2, h3, h4, h5, h6, h7, h8, h9, h10, h11, h12, h13,
    h14, h15, h16, h17, h18, h19]
  rfl

/-- The fields of an edge profile are read to its own. -/
structure EdgeProfile.Reads (field : String → Option Json)
    (edge : EdgeProfile) : Prop where
  host : required Json.asString (field "host") = some edge.host
  port : required readUInt16 (field "port") = some edge.port
  tlsRequired : defaulted readBool true (field "tls_required") =
    some edge.tlsRequired
  notes : defaulted Json.asString "" (field "notes") = some edge.notes

theorem EdgeProfile.ofFields_eq_some_iff {field : String → Option Json}
    {edge : EdgeProfile} :
    EdgeProfile.ofFields field = some edge ↔ edge.Reads field := by
  simp only [EdgeProfile.ofFields, Option.bind_eq_bind,
    Option.bind_eq_some_iff, Option.pure_def, Option.some.injEq]
  constructor
  · rintro ⟨_, h1, _, h2, _, h3, _, h4, rfl⟩
    exact ⟨h1, h2, h3, h4⟩
  · rintro ⟨h1, h2, h3, h4⟩
    exact ⟨_, h1, _, h2, _, h3, _, h4, rfl⟩

/-- The members of the root are read to those of a profile. -/
structure SnapProfile.Reads (field : String → Option Json)
    (profile : SnapProfile) : Prop where
  version : defaulted readUInt32 profileVersion (field "version") =
    some profile.version
  profileName : defaulted Json.asString defaultProfileName
    (field "profile_name") = some profile.profileName
  mode : defaulted (readVariant snapModes) .auto (field "mode") =
    some profile.mode
  peerAlias : required Json.asString (field "peer_alias") =
    some profile.peerAlias
  connectTimeoutSec : defaulted readBinary64 defaultConnectTimeout
    (field "connect_timeout_sec") = some profile.connectTimeoutSec
  directEndpoints : defaulted (readList readDirectEndpoint) []
    (field "direct_endpoints") = some profile.directEndpoints
  bridges : defaulted (readList readBridge) [] (field "bridges") =
    some profile.bridges
  retryPolicy : defaulted readRetry .default (field "retry_policy") =
    some profile.retryPolicy
  edgeProfiles : defaulted readEdges [] (field "edge_profiles") =
    some profile.edgeProfiles
  transportPreferences : defaulted readPreferences .default
    (field "transport_preferences") = some profile.transportPreferences

theorem SnapProfile.ofFields_eq_some_iff {field : String → Option Json}
    {profile : SnapProfile} :
    SnapProfile.ofFields field = some profile ↔ profile.Reads field := by
  simp only [SnapProfile.ofFields, Option.bind_eq_bind,
    Option.bind_eq_some_iff, Option.pure_def, Option.some.injEq]
  constructor
  · rintro ⟨_, h1, _, h2, _, h3, _, h4, _, h5, _, h6, _, h7, _, h8, _, h9, _,
      h10, rfl⟩
    exact ⟨h1, h2, h3, h4, h5, h6, h7, h8, h9, h10⟩
  · rintro ⟨h1, h2, h3, h4, h5, h6, h7, h8, h9, h10⟩
    exact ⟨_, h1, _, h2, _, h3, _, h4, _, h5, _, h6, _, h7, _, h8, _, h9, _,
      h10, rfl⟩

end Reads

section Members

def FiniteTimeout (timeout : Option Binary64) : Prop :=
  ∀ seconds ∈ timeout, seconds.isFinite = true

theorem readTimeout_written {timeout : Option Binary64}
    (hfinite : FiniteTimeout timeout) :
    readOption readBinary64 (.ofOption .ofBinary64 timeout) =
      some timeout := by
  apply readOption_ofOption
  intro seconds hseconds
  have hread := readBinary64_ofBinary64 (hfinite seconds hseconds)
  refine ⟨fun hnull => ?_, hread⟩
  rw [hnull] at hread
  cases hread

theorem DirectEndpoint.reads_members {endpoint : DirectEndpoint}
    (htimeout : FiniteTimeout endpoint.timeoutSec) :
    endpoint.Reads fun name => endpoint.members.lookup name where
  ip := rfl
  port := readUInt16_ofUInt16 _
  transport := rfl
  adapter := rfl
  tlsEnabled := rfl
  sni := readOption_ofString _
  edgeLabel := readOption_ofString _
  priority := readUInt16_ofUInt16 _
  weight := readUInt16_ofUInt16 _
  timeoutSec := readTimeout_written htimeout
  allowedFallback := readStrings_eq_some_iff.mpr rfl

theorem structOf_ofMembers {names : List String}
    {members : List (String × Json)}
    (hnodup : (members.map Prod.fst).Nodup)
    (hknown : ∀ key ∈ members.map Prod.fst, key ∈ names) :
    structOf names (.ofMembers members) =
      some fun name => members.lookup name := by
  have hkeys : ∀ key ∈ (ofEntries members).map Prod.fst, key ∈ names :=
    fun key hkey => hknown key (mem_keys_ofEntries.mp hkey)
  rw [Json.ofMembers, structOf_object hkeys]
  exact congrArg some (funext (lookup_ofEntries hnodup))

theorem readContract_members (contract : OperatorServiceContract) :
    readContract (.ofMembers contract.members) = some contract := by
  have hkeys : contract.members.map Prod.fst = contractFields := rfl
  have hnodup : contractFields.Nodup := by decide
  rw [readContract, structOf_ofMembers (hkeys ▸ hnodup)
    (hkeys ▸ fun key hkey => hkey)]
  rfl

theorem Bridge.reads_members {bridge : Bridge}
    (htimeout : FiniteTimeout bridge.timeoutSec) :
    bridge.Reads fun name => bridge.members.lookup name where
  label := rfl
  ip := rfl
  port := readUInt16_ofUInt16 _
  keyFile := readOption_ofString _
  routeFile := readOption_ofString _
  transport := rfl
  adapter := rfl
  tlsEnabled := rfl
  sni := readOption_ofString _
  edgeLabel := readOption_ofString _
  priority := readUInt16_ofUInt16 _
  weight := readUInt16_ofUInt16 _
  timeoutSec := readTimeout_written htimeout
  allowedFallback := readStrings_eq_some_iff.mpr rfl
  tlsCaFile := readOption_ofString _
  tlsCertSha256 := readOption_ofString _
  wsPath := readOption_ofString _
  shroudProfile := readOption_ofString _
  operatorServiceContract := by
    obtain ⟨⟩ := bridge
    rename_i contract
    cases contract with
    | none => rfl
    | some contract =>
        exact congrArg (Option.map some) (readContract_members contract)

theorem EdgeProfile.reads_members (edge : EdgeProfile) :
    edge.Reads fun name => edge.members.lookup name where
  host := rfl
  port := readUInt16_ofUInt16 _
  tlsRequired := rfl
  notes := rfl

end Members

section Texts

variable {A : Type}

/-- A structure with texts among its fields, to which the changes are made.
What stands for a text that is missing is written like the text. -/
structure TextFields (changes : List (String × (Json → Json)))
    (names : List String) (ofFields : (String → Option Json) → Option A)
    (members : A → List (String × Json)) (default : String → Json)
    (valid : A → Prop) : Prop where
  changeNames : (changes.map Prod.fst).Nodup
  memberNames : ∀ item, ((members item).map Prod.fst).Nodup
  known : ∀ item, ∀ key ∈ (members item).map Prod.fst, key ∈ names
  readBack : ∀ {item}, valid item →
    ofFields (fun name => (members item).lookup name) = some item
  written : ∀ {field item}, valid item → ofFields field = some item →
    ∀ change ∈ changes, (members item).lookup change.1 =
      if change.1 ∈ names then
        some ((field change.1).getD (default change.1))
      else none

variable {changes : List (String × (Json → Json))} {names : List String}
  {ofFields : (String → Option Json) → Option A}
  {members : A → List (String × Json)} {default : String → Json}
  {valid : A → Prop} {item : A}

/-- Changed members are read to the same if and only if the changes did
nothing. -/
theorem TextFields.read_changed_iff
    (htexts : TextFields changes names ofFields members default valid)
    (hvalid : valid item) {field : String → Option Json}
    (hfield : ∀ name, field name = ((members item).lookup name).map
      ((changes.lookup name).getD id)) :
    ofFields field = some item ↔
      Unchanged changes fun name => (members item).lookup name := by
  constructor
  · intro hread change hchange value hvalue
    dsimp only at hvalue
    have hlookup : changes.lookup change.1 = some change.2 :=
      lookup_of_mem htexts.changeNames hchange
    have hchanged : field change.1 = some (change.2 value) := by
      rw [hfield, hvalue, hlookup]
      rfl
    have hwritten := htexts.written hvalid hread change hchange
    rw [hvalue, hchanged] at hwritten
    split at hwritten
    · exact (Option.some.inj hwritten).symm
    · cases hwritten
  · intro hunchanged
    have hsame : field = fun name => (members item).lookup name :=
      funext fun name => (hfield name).trans
        (map_change_of_unchanged hunchanged name)
    rw [hsame]
    exact htexts.readBack hvalid

theorem TextFields.read_applyChanges_iff
    (htexts : TextFields changes names ofFields members default valid)
    (hvalid : valid item) :
    (structOf names (.object (applyChanges changes
        (ofEntries (members item))))).bind ofFields = some item ↔
      Unchanged changes fun name => (members item).lookup name := by
  have hkeys : ∀ key ∈ (applyChanges changes
      (ofEntries (members item))).map Prod.fst, key ∈ names := by
    intro key hkey
    rw [keys_applyChanges] at hkey
    exact htexts.known item key (mem_keys_ofEntries.mp hkey)
  rw [structOf_object hkeys, Option.bind_some]
  apply htexts.read_changed_iff hvalid
  intro name
  rw [lookup_applyChanges htexts.changeNames,
    lookup_ofEntries (htexts.memberNames item)]

/-- Texts the changes leave alone are left alone where they are written. -/
theorem TextFields.unchanged_written
    (htexts : TextFields changes names ofFields members default valid)
    (hdefault : ∀ change ∈ changes,
      change.2 (default change.1) = default change.1)
    (hvalid : valid item) {field : String → Option Json}
    (hread : ofFields field = some item)
    (hunchanged : Unchanged changes field) :
    Unchanged changes fun name => (members item).lookup name := by
  intro change hchange value hvalue
  dsimp only at hvalue
  rw [htexts.written hvalid hread change hchange] at hvalue
  split at hvalue
  · rw [← Option.some.inj hvalue]
    cases hold : field change.1 with
    | none => exact hdefault change hchange
    | some old => exact hunchanged change hchange old hold
  · cases hvalue

theorem TextFields.unchanged_read
    (htexts : TextFields changes names ofFields members default valid)
    (hvalid : valid item) {field : String → Option Json}
    (hnone : ∀ key ∉ names, field key = none)
    (hread : ofFields field = some item)
    (hunchanged : Unchanged changes fun name => (members item).lookup name) :
    Unchanged changes field := by
  intro change hchange value hvalue
  have hwritten := htexts.written hvalid hread change hchange
  have hname : change.1 ∈ names := by
    by_contra hother
    rw [hnone change.1 hother] at hvalue
    cases hvalue
  rw [if_pos hname, hvalue] at hwritten
  exact hunchanged change hchange value hwritten

end Texts

section Candidates

variable (text : AddressText)

def directDefault (name : String) : Json :=
  ([("transport", .string defaultTcp),
    ("adapter", .string defaultDirectAdapter),
    ("allowed_fallback", .array [])].lookup name).getD .null

theorem DirectEndpoint.textFields : TextFields (candidateChanges text)
    directEndpointFields DirectEndpoint.ofFields DirectEndpoint.members
    directDefault fun endpoint => FiniteTimeout endpoint.timeoutSec where
  changeNames := candidateChanges_nodup
  memberNames endpoint := by
    have hkeys : endpoint.members.map Prod.fst = directEndpointFields := rfl
    have hnodup : directEndpointFields.Nodup := by decide
    exact hkeys ▸ hnodup
  known endpoint := by
    have hkeys : endpoint.members.map Prod.fst = directEndpointFields := rfl
    exact hkeys ▸ fun key hkey => hkey
  readBack hfinite := DirectEndpoint.ofFields_eq_some_iff.mpr
    (DirectEndpoint.reads_members hfinite)
  written := by
    intro field endpoint _ hread
    have hreads := DirectEndpoint.ofFields_eq_some_iff.mp hread
    simp only [candidateChanges, List.forall_mem_cons]
    refine ⟨?_, ?_, ?_, rfl, rfl, rfl, ?_, ?_, rfl, rfl, rfl, rfl, ?_,
      fun _ hnone => absurd hnone List.not_mem_nil⟩
    · exact congrArg some (getD_of_required hreads.ip).symm
    · exact congrArg some (getD_of_defaulted hreads.transport).symm
    · exact congrArg some (getD_of_defaulted hreads.adapter).symm
    · exact congrArg some (getD_of_option hreads.sni).symm
    · exact congrArg some (getD_of_option hreads.edgeLabel).symm
    · exact congrArg some (getD_of_strings hreads.allowedFallback).symm

theorem lowercaseString_default {value : String}
    (hlower : lowercase (trim value) = value) :
    lowercaseString (.string value) = .string value :=
  congrArg Json.string hlower

theorem directDefault_unchanged : ∀ change ∈ candidateChanges text,
    change.2 (directDefault change.1) = directDefault change.1 := by
  simp only [candidateChanges, List.forall_mem_cons]
  exact ⟨rfl, lowercaseString_default (by decide),
    lowercaseString_default (by decide), rfl, rfl, rfl, rfl, rfl, rfl, rfl,
    rfl, rfl, rfl, fun _ hnone => absurd hnone List.not_mem_nil⟩

def bridgeDefault (name : String) : Json :=
  ([("transport", .string defaultOnionTransport),
    ("adapter", .string defaultOnionAdapter),
    ("allowed_fallback", .array [])].lookup name).getD .null

theorem bridgeDefault_unchanged : ∀ change ∈ candidateChanges text,
    change.2 (bridgeDefault change.1) = bridgeDefault change.1 := by
  simp only [candidateChanges, List.forall_mem_cons]
  exact ⟨rfl, lowercaseString_default (by decide),
    lowercaseString_default (by decide), rfl, rfl, rfl, rfl, rfl, rfl, rfl,
    rfl, rfl, rfl, fun _ hnone => absurd hnone List.not_mem_nil⟩

/-- A contract that is there comes last among the names. -/
theorem Bridge.names_sublist (bridge : Bridge) :
    (bridge.members.map Prod.fst).Sublist bridgeFields := by
  rw [Bridge.members, List.map_append]
  cases bridge.operatorServiceContract with
  | none =>
      rw [List.map_nil, List.append_nil]
      exact List.sublist_append_left _ ["operator_service_contract"]
  | some contract => exact List.Sublist.refl _

theorem Bridge.textFields : TextFields (candidateChanges text) bridgeFields
    Bridge.ofFields Bridge.members bridgeDefault fun bridge =>
      FiniteTimeout bridge.timeoutSec ∧ bridge.label ≠ "" where
  changeNames := candidateChanges_nodup
  memberNames bridge := bridge.names_sublist.nodup (by decide)
  known bridge := bridge.names_sublist.subset
  readBack hvalid := Bridge.ofFields_of_reads
    (Bridge.reads_members hvalid.1)
  written := by
    intro field bridge hvalid hread
    have hreads := Bridge.reads_of_ofFields hread
    have hlabel : (field "label").getD .null = .string bridge.label := by
      cases hfield : field "label" with
      | none =>
          have hmissing := hreads.label
          rw [hfield] at hmissing
          exact absurd (Option.some.inj hmissing).symm hvalid.2
      | some value =>
          have hvalue := hreads.label
          rw [hfield] at hvalue
          exact Json.asString_eq_some_iff.mp hvalue
    simp only [candidateChanges, List.forall_mem_cons]
    refine ⟨?_, ?_, ?_, ?_, ?_, ?_, ?_, ?_, ?_, ?_, ?_, ?_, ?_,
      fun _ hnone => absurd hnone List.not_mem_nil⟩
    · exact congrArg some (getD_of_required hreads.ip).symm
    · exact congrArg some (getD_of_defaulted hreads.transport).symm
    · exact congrArg some (getD_of_defaulted hreads.adapter).symm
    · exact congrArg some hlabel.symm
    · exact congrArg some (getD_of_option hreads.keyFile).symm
    · exact congrArg some (getD_of_option hreads.routeFile).symm
    · exact congrArg some (getD_of_option hreads.sni).symm
    · exact congrArg some (getD_of_option hreads.edgeLabel).symm
    · exact congrArg some (getD_of_option hreads.tlsCaFile).symm
    · exact congrArg some (getD_of_option hreads.wsPath).symm
    · exact congrArg some (getD_of_option hreads.shroudProfile).symm
    · exact congrArg some (getD_of_option hreads.tlsCertSha256).symm
    · exact congrArg some (getD_of_strings hreads.allowedFallback).symm

end Candidates

section Edges

/-- An empty text stands for notes that are missing. -/
def edgeDefault (name : String) : Json :=
  if name = "notes" then .string "" else .null

theorem EdgeProfile.textFields : TextFields edgeChanges edgeFields
    EdgeProfile.ofFields EdgeProfile.members edgeDefault fun _ => True where
  changeNames := by decide
  memberNames edge := by
    have hkeys : edge.members.map Prod.fst = edgeFields := rfl
    have hnodup : edgeFields.Nodup := by decide
    exact hkeys ▸ hnodup
  known edge := by
    have hkeys : edge.members.map Prod.fst = edgeFields := rfl
    exact hkeys ▸ fun key hkey => hkey
  readBack _ := EdgeProfile.ofFields_eq_some_iff.mpr
    (EdgeProfile.reads_members _)
  written := by
    intro field edge _ hread
    have hreads := EdgeProfile.ofFields_eq_some_iff.mp hread
    simp only [edgeChanges, List.forall_mem_cons]
    refine ⟨?_, ?_, fun _ hnone => absurd hnone List.not_mem_nil⟩
    · exact congrArg some (getD_of_required hreads.host).symm
    · exact congrArg some (getD_of_defaulted hreads.notes).symm

end Edges

end Shph.SnapPath
