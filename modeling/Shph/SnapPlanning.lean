/-
From a profile to a plan: the check of a whole profile, and the candidates
that its mode leaves of its entries, in the order in which they are tried.
The texts that serializers and the standard library write are parameters.
-/
import Shph.Library.JsonTree
import Shph.SnapFallback

namespace Shph.SnapPath

open ByteCodec Checked ControlPlane DepthFirst FlatJson JsonTree SortOrder

/-- How addresses, profiles and values are read and written, and the hash of
what was written. -/
structure SnapText where
  addresses : AddressText
  profileJson : SnapProfile → String
  valueJson : Json → String
  sha256 : Bytes → FixedBytes 32

variable (text : SnapText)

namespace SnapProfile

/-- The entries without which a mode has nothing to try. -/
def validateMode (profile : SnapProfile) : Except SnapError Unit :=
  match profile.mode with
  | .auto => .ok ()
  | .directOnly => require (profile.directEndpoints ≠ [])
      (.invalid
        "direct-only mode requires at least one direct_endpoints entry")
  | .bridgesOnly => require (profile.bridges ≠ [])
      (.invalid "bridges-only mode requires at least one bridge entry")
  | .onionOnly => require (profile.bridges ≠ [])
      (.invalid "onion-only mode requires at least one bridge entry")

def validate (profile : SnapProfile) : Except SnapError Unit := do
  require (profile.version = profileVersion)
    (.invalid ("unsupported profile version " ++
      toString profile.version.toNat ++ "; expected " ++
      toString profileVersion.toNat))
  validateText "profile_name" profile.profileName 128
  validateText "peer_alias" profile.peerAlias 128
  validateRange "connect_timeout_sec" profile.connectTimeoutSec .fifth .sixty
  profile.retryPolicy.validate
  profile.validateMode
  require (profile.directEndpoints.length ≤ maxDirectEndpoints)
    (.invalid ("direct_endpoints supports at most " ++
      toString maxDirectEndpoints ++ " entries"))
  require (profile.bridges.length ≤ maxBridges)
    (.invalid ("bridges supports at most " ++ toString maxBridges ++
      " entries"))
  validateAdapterOrder profile.transportPreferences.adapterOrder
  let _ ← profile.bridges.foldlM
    (Bridge.validate text.addresses profile.edgeProfiles) []
  checkEach (DirectEndpoint.validate text.addresses) profile.directEndpoints
  checkEach (fun labelled => labelled.2.validate labelled.1)
    profile.edgeProfiles
  profile.validateFallbackGraph

def profileHash (profile : SnapProfile) : String :=
  hexEncode (text.sha256 (textBytes (text.profileJson profile))).val

end SnapProfile

/-- What the check of a whole profile establishes. -/
structure ProfileValid (profile : SnapProfile) : Prop where
  version : profile.version = profileVersion
  name : validateText "profile_name" profile.profileName 128 = .ok ()
  peer : validateText "peer_alias" profile.peerAlias 128 = .ok ()
  timeout : validateRange "connect_timeout_sec" profile.connectTimeoutSec
    .fifth .sixty = .ok ()
  retry : profile.retryPolicy.validate = .ok ()
  mode : profile.validateMode = .ok ()
  directCount : profile.directEndpoints.length ≤ maxDirectEndpoints
  bridgeCount : profile.bridges.length ≤ maxBridges
  order : validateAdapterOrder profile.transportPreferences.adapterOrder =
    .ok ()
  bridges : ∃ labels, profile.bridges.foldlM
    (Bridge.validate text.addresses profile.edgeProfiles) [] = .ok labels
  endpoints : ∀ endpoint ∈ profile.directEndpoints,
    endpoint.validate text.addresses = .ok ()
  edges : ∀ labelled ∈ profile.edgeProfiles,
    labelled.2.validate labelled.1 = .ok ()
  graph : profile.validateFallbackGraph = .ok ()

theorem validate_eq_ok_iff {text : SnapText} {profile : SnapProfile} :
    profile.validate text = .ok () ↔ ProfileValid text profile := by
  simp only [SnapProfile.validate, then_eq_ok, @bind_eq_ok _ (List String),
    require_eq_ok_iff, checkEach_eq_ok_iff]
  constructor
  · rintro ⟨h1, h2, h3, h4, h5, h6, h7, h8, h9, labels, h10, h11, h12, h13⟩
    exact ⟨h1, h2, h3, h4, h5, h6, h7, h8, h9, ⟨labels, h10⟩, h11, h12, h13⟩
  · rintro ⟨h1, h2, h3, h4, h5, h6, h7, h8, h9, ⟨labels, h10⟩, h11, h12, h13⟩
    exact ⟨h1, h2, h3, h4, h5, h6, h7, h8, h9, labels, h10, h11, h12, h13⟩

inductive CandidateKind where
  | direct
  | bridge
deriving Repr, DecidableEq

structure SnapCandidate where
  kind : CandidateKind
  adapter : String
  transport : String
  targetHost : String
  targetPort : UInt16
  source : String
  priority : UInt16
  weight : UInt16
  timeoutSec : Option Binary64
  allowedFallback : List String
  edgeLabel : Option String
  routeFile : Option String
  tlsEnabled : Option Bool
  sni : Option String
  tlsCaFile : Option String
  tlsCertSha256 : Option String
  wsPath : Option String
  shroudProfile : Option String
  relayIp : Option String
  relayPort : Option UInt16
  keyFile : Option String
  operatorServiceContract : Option OperatorServiceContract
  candidateId : String
  insertionIndex : Nat
deriving Repr, DecidableEq

/-- A code unit in four digits behind a backslash. -/
def escapeUnit (unit : Nat) : List Char :=
  ['\\', 'u', hexDigit (unit / 4096 % 16), hexDigit (unit / 256 % 16),
    hexDigit (unit / 16 % 16), hexDigit (unit % 16)]

/-- A character outside ASCII as one code unit or a pair of surrogates. -/
def escapeNonAscii (char : Char) : List Char :=
  if char.toNat ≤ 0xffff then escapeUnit char.toNat
  else
    let adjusted := char.toNat - 0x10000
    escapeUnit (0xd800 + adjusted / 1024) ++
      escapeUnit (0xdc00 + adjusted % 1024)

/-- Escape the characters outside ASCII that stand in strings. -/
def escapeNonAsciiJson : (inString escaped : Bool) → List Char → List Char
  | _, _, [] => []
  | false, escaped, char :: rest =>
      char :: escapeNonAsciiJson (char == '"') escaped rest
  | true, true, char :: rest => char :: escapeNonAsciiJson true false rest
  | true, false, char :: rest =>
      if char = '\\' then char :: escapeNonAsciiJson true true rest
      else if char = '"' then char :: escapeNonAsciiJson false false rest
      else if char.toNat < 128 then
        char :: escapeNonAsciiJson true false rest
      else escapeNonAscii char ++ escapeNonAsciiJson true false rest

namespace SnapCandidate

def idPayload (candidate : SnapCandidate) : Json :=
  .ofMembers [
    ("kind", .string (match candidate.kind with
      | .direct => "direct"
      | .bridge => "bridge")),
    ("adapter", .string candidate.adapter),
    ("target_ip", .string candidate.targetHost),
    ("target_port", .ofUInt16 candidate.targetPort),
    ("tls_enabled", .bool (candidate.tlsEnabled.getD false)),
    ("sni", .ofOption .string candidate.sni),
    ("tls_ca_file", .ofOption .string candidate.tlsCaFile),
    ("tls_cert_sha256", .ofOption .string candidate.tlsCertSha256),
    ("ws_path", .ofOption .string candidate.wsPath),
    ("route_file", .ofOption .string candidate.routeFile),
    ("source", .string candidate.source),
    ("priority", .ofUInt16 candidate.priority),
    ("weight", .ofUInt16 candidate.weight),
    ("timeout_sec", .ofOption .ofBinary64 candidate.timeoutSec),
    ("allowed_fallback", .ofStrings candidate.allowedFallback),
    ("edge_label", .ofOption .string candidate.edgeLabel),
    ("shroud_profile", .ofOption .string candidate.shroudProfile)]

def computeId (candidate : SnapCandidate) : String :=
  let canonical := escapeNonAsciiJson false false
    (text.valueJson candidate.idPayload).toList
  String.ofList ((hexEncode (text.sha256
    (textBytes (String.ofList canonical))).val).toList.take 16)

end SnapCandidate

structure SnapPlan where
  profileName : String
  profileHash : String
  peerAlias : String
  connectTimeoutSec : Binary64
  retryPolicy : RetryPolicy
  attemptLimit : Nat
  candidates : List SnapCandidate
deriving Repr, DecidableEq

def SnapPlan.candidateAllowsFallback (source target : SnapCandidate) : Bool :=
  source.allowedFallback.isEmpty ||
    source.allowedFallback.contains target.adapter

def RetryPolicy.attemptLimit (policy : RetryPolicy) (candidateCount : Nat) :
    Nat :=
  let computed := saturatingMul candidateCount policy.rounds.toNat
  if policy.maxTotalAttempts = 0 then computed
  else min computed policy.maxTotalAttempts.toNat

namespace SnapProfile

/-- The peer itself, for a profile without direct endpoints. -/
def peerCandidate (peerHost : String) (peerPort : UInt16) : SnapCandidate where
  kind := .direct
  adapter := "direct-tcp"
  transport := "tcp"
  targetHost := peerHost
  targetPort := peerPort
  source := "profile_direct_endpoint"
  priority := 100
  weight := 100
  timeoutSec := none
  allowedFallback := []
  edgeLabel := none
  routeFile := none
  tlsEnabled := none
  sni := none
  tlsCaFile := none
  tlsCertSha256 := none
  wsPath := none
  shroudProfile := none
  relayIp := none
  relayPort := none
  keyFile := none
  operatorServiceContract := none
  candidateId := ""
  insertionIndex := 0

def directCandidate (endpoint : DirectEndpoint) (insertion : Nat) :
    SnapCandidate where
  kind := .direct
  adapter := endpoint.adapter
  transport := endpoint.transport
  targetHost := endpoint.ip
  targetPort := endpoint.port
  source := "profile_direct_endpoint"
  priority := endpoint.priority
  weight := endpoint.weight
  timeoutSec := endpoint.timeoutSec
  allowedFallback := endpoint.allowedFallback
  edgeLabel := none
  routeFile := none
  tlsEnabled := if endpoint.tlsEnabled then some true else none
  sni := endpoint.sni
  tlsCaFile := none
  tlsCertSha256 := none
  wsPath := none
  shroudProfile := none
  relayIp := none
  relayPort := none
  keyFile := none
  operatorServiceContract := none
  candidateId := ""
  insertionIndex := insertion

/-- Where a bridge leads: to its edge, if it is of a kind that has one. -/
def bridgeTarget (profile : SnapProfile) (peerHost : String)
    (peerPort : UInt16) (bridge : Bridge) : String × UInt16 :=
  let edge := bridge.edgeLabel.bind fun label =>
    profile.edgeProfiles.lookup label
  if bridge.adapter = "bridge-onion-tcp" then (peerHost, peerPort)
  else
    match edge with
    | some edge => (edge.host, edge.port)
    | none => (peerHost, peerPort)

def bridgeCandidate (profile : SnapProfile) (peerHost : String)
    (peerPort : UInt16) (bridge : Bridge) (insertion : Nat) :
    SnapCandidate where
  kind := .bridge
  adapter := bridge.adapter
  transport := bridge.transport
  targetHost := (profile.bridgeTarget peerHost peerPort bridge).1
  targetPort := (profile.bridgeTarget peerHost peerPort bridge).2
  source := "bridge:" ++ bridge.label
  priority := bridge.priority
  weight := bridge.weight
  timeoutSec := bridge.timeoutSec
  allowedFallback := bridge.allowedFallback
  edgeLabel := bridge.edgeLabel
  routeFile := bridge.routeFile
  tlsEnabled := some bridge.tlsEnabled
  sni := bridge.sni
  tlsCaFile := bridge.tlsCaFile
  tlsCertSha256 := bridge.tlsCertSha256
  wsPath := bridge.wsPath
  shroudProfile := bridge.shroudProfile
  relayIp := some bridge.ip
  relayPort := some bridge.port
  keyFile := bridge.keyFile
  operatorServiceContract := bridge.operatorServiceContract
  candidateId := ""
  insertionIndex := insertion

def includeDirect (profile : SnapProfile) : Bool :=
  profile.mode = .auto ∨ profile.mode = .directOnly

def includeBridges (profile : SnapProfile) : Bool :=
  profile.mode = .auto ∨ profile.mode = .bridgesOnly ∨
    profile.mode = .onionOnly

/-- The direct candidates, numbered from one. -/
def directCandidates (profile : SnapProfile) (peerHost : String)
    (peerPort : UInt16) : List SnapCandidate :=
  if profile.includeDirect then
    if profile.directEndpoints = [] then [peerCandidate peerHost peerPort]
    else profile.directEndpoints.mapIdx fun index endpoint =>
      directCandidate endpoint (index + 1)
  else []

/-- The bridges, numbered behind the direct endpoints. -/
def bridgeCandidates (profile : SnapProfile) (peerHost : String)
    (peerPort : UInt16) : List SnapCandidate :=
  if profile.includeBridges then
    let before :=
      if profile.includeDirect then profile.directEndpoints.length else 0
    profile.bridges.mapIdx fun index bridge =>
      profile.bridgeCandidate peerHost peerPort bridge (before + index + 1)
  else []

/-- The place of an adapter in the preferences, the last one it has. -/
def adapterRank (profile : SnapProfile) (adapter : String) : Nat :=
  (profile.transportPreferences.adapterOrder.zipIdx.reverse.lookup
    adapter).getD u64Max

def natLe (left right : Nat) : Bool := left ≤ right

def candidateLe (profile : SnapProfile) : SnapCandidate → SnapCandidate →
    Bool :=
  andThen (byPart (fun candidate => candidate.priority.toNat) natLe)
    (andThen (byPart (fun candidate => profile.adapterRank candidate.adapter)
      natLe)
      (andThen (fun left right => natLe right.weight.toNat left.weight.toNat)
        (byPart SnapCandidate.insertionIndex natLe)))

def plan (profile : SnapProfile) (peerHost : String) (peerPort : UInt16) :
    Except SnapError SnapPlan := do
  profile.validate text
  validateHost "peer endpoint host" peerHost
  validatePort "peer endpoint port" peerPort
  let sorted := (profile.directCandidates peerHost peerPort ++
    profile.bridgeCandidates peerHost peerPort).mergeSort profile.candidateLe
  let candidates := sorted.map fun candidate =>
    { candidate with candidateId := candidate.computeId text }
  pure {
    profileName := profile.profileName
    profileHash := profile.profileHash text
    peerAlias := profile.peerAlias
    connectTimeoutSec := profile.connectTimeoutSec
    retryPolicy := profile.retryPolicy
    attemptLimit := profile.retryPolicy.attemptLimit candidates.length
    candidates := candidates }

end SnapProfile

/-- What decides about fallback in a candidate. -/
def SnapCandidate.entry (candidate : SnapCandidate) : FallbackEntry :=
  ⟨candidate.adapter, candidate.allowedFallback⟩

/-- Every entry that names adapters has one of them at another place. -/
def Closed (entries : List FallbackEntry) : Prop :=
  ∀ (before : List FallbackEntry) (entry : FallbackEntry)
    (after : List FallbackEntry), entries = before ++ entry :: after →
      entry.allowed ≠ [] →
        ∃ other ∈ before ++ after, other.adapter ∈ entry.allowed

section Closed

variable {entries : List FallbackEntry}

/-- The order of the entries does not matter. -/
theorem Closed.perm {other : List FallbackEntry} (hclosed : Closed entries)
    (hperm : entries.Perm other) : Closed other := by
  intro before entry after hsplit hallowed
  have hmem : entry ∈ entries := by
    rw [hperm.mem_iff, hsplit]
    simp
  obtain ⟨front, back, hentries⟩ := List.append_of_mem hmem
  obtain ⟨target, htarget, hnamed⟩ :=
    hclosed front entry back hentries hallowed
  rw [hentries, hsplit] at hperm
  have hrest : (front ++ back).Perm (before ++ after) :=
    (List.perm_middle.symm.trans (hperm.trans List.perm_middle)).cons_inv
  exact ⟨target, hrest.mem_iff.mp htarget, hnamed⟩

theorem closed_perm_iff {other : List FallbackEntry}
    (hperm : entries.Perm other) : Closed entries ↔ Closed other :=
  ⟨fun hclosed => hclosed.perm hperm,
    fun hclosed => hclosed.perm hperm.symm⟩

/-- The same with the places numbered. -/
theorem closed_iff_getElem? : Closed entries ↔
    ∀ (index : Nat) (entry : FallbackEntry), entries[index]? = some entry →
      entry.allowed ≠ [] → ∃ (place : Nat) (other : FallbackEntry),
        place ≠ index ∧ entries[place]? = some other ∧
          other.adapter ∈ entry.allowed := by
  constructor
  · intro hclosed index entry hentry hallowed
    obtain ⟨hindex, hget⟩ := List.getElem?_eq_some_iff.mp hentry
    have hsplit : entries =
        entries.take index ++ entry :: entries.drop (index + 1) := by
      rw [← hget, List.cons_getElem_drop_succ, List.take_append_drop]
    obtain ⟨other, hother, hnamed⟩ :=
      hclosed _ entry _ hsplit hallowed
    rcases List.mem_append.mp hother with hfront | hback
    · obtain ⟨place, hplace⟩ := List.mem_iff_getElem?.mp hfront
      have hlt := (List.getElem?_eq_some_iff.mp hplace).1
      rw [List.length_take] at hlt
      rw [List.getElem?_take_of_lt (by omega)] at hplace
      exact ⟨place, other, by omega, hplace, hnamed⟩
    · obtain ⟨place, hplace⟩ := List.mem_iff_getElem?.mp hback
      rw [List.getElem?_drop] at hplace
      exact ⟨index + 1 + place, other, by omega, hplace, hnamed⟩
  · intro hplaces before entry after hsplit hallowed
    have hentry : entries[before.length]? = some entry := by
      rw [hsplit, List.getElem?_append_right (Nat.le_refl _), Nat.sub_self]
      rfl
    obtain ⟨place, other, hne, hplace, hnamed⟩ :=
      hplaces _ entry hentry hallowed
    refine ⟨other, ?_, hnamed⟩
    rw [hsplit] at hplace
    rcases Nat.lt_or_gt_of_ne hne with hlt | hgt
    · rw [List.getElem?_append_left hlt] at hplace
      exact List.mem_append_left _ (List.mem_of_getElem? hplace)
    · rw [List.getElem?_append_right (Nat.le_of_lt hgt)] at hplace
      obtain ⟨gap, hgap⟩ : ∃ gap, place - before.length = gap + 1 :=
        ⟨place - before.length - 1, by omega⟩
      rw [hgap, List.getElem?_cons_succ] at hplace
      exact List.mem_append_right _ (List.mem_of_getElem? hplace)

theorem leads_of_getElem? {source target : Nat}
    {entry other : FallbackEntry} (hsource : entries[source]? = some entry)
    (htarget : entries[target]? = some other) (hne : target ≠ source)
    (hnamed : other.adapter ∈ entry.allowed) :
    Leads entries ⟨source, (List.getElem?_eq_some_iff.mp hsource).1⟩
      ⟨target, (List.getElem?_eq_some_iff.mp htarget).1⟩ := by
  obtain ⟨hsourceLt, hsourceGet⟩ := List.getElem?_eq_some_iff.mp hsource
  obtain ⟨htargetLt, htargetGet⟩ := List.getElem?_eq_some_iff.mp htarget
  refine ⟨fun heq => hne (Fin.mk.inj heq), ?_⟩
  simp only [Fin.getElem_fin, hsourceGet, htargetGet]
  exact hnamed

/-- A part of the entries is closed when every entry in it that names adapters
has a target in it. -/
theorem closed_part_iff {part : List FallbackEntry} {offset : Nat}
    {inside : Nat → Prop} (hpart : ∀ (index : Nat) (entry : FallbackEntry),
      part[index]? = some entry ↔
        inside (offset + index) ∧ entries[offset + index]? = some entry)
    (hoffset : ∀ index, inside index → offset ≤ index) :
    Closed part ↔ ∀ index : Fin entries.length, inside index →
      (entries.get index).allowed ≠ [] →
        ∃ target ∈ FallbackEntry.targets entries index, inside target := by
  rw [closed_iff_getElem?]
  constructor
  · intro hclosed index hinside hallowed
    obtain ⟨gap, hgap⟩ : ∃ gap, (index : Nat) = offset + gap :=
      ⟨index - offset, by have := hoffset index hinside; omega⟩
    have hentry : entries[offset + gap]? = some entries[index] := by
      rw [← hgap]
      exact List.getElem?_eq_getElem index.isLt
    obtain ⟨place, other, hne, hplace, hnamed⟩ := hclosed gap entries[index]
      ((hpart gap _).mpr ⟨hgap ▸ hinside, hentry⟩) hallowed
    obtain ⟨hplaceInside, hother⟩ := (hpart place other).mp hplace
    have hleads := leads_of_getElem? hentry hother (by omega) hnamed
    have hindex : (⟨offset + gap, (List.getElem?_eq_some_iff.mp hentry).1⟩ :
        Fin entries.length) = index := Fin.ext hgap.symm
    rw [hindex] at hleads
    exact ⟨_, mem_targets.mpr hleads, hplaceInside⟩
  · intro htargets index entry hentry hallowed
    obtain ⟨hinside, hget⟩ := (hpart index entry).mp hentry
    obtain ⟨hlt, hsame⟩ := List.getElem?_eq_some_iff.mp hget
    obtain ⟨target, htarget, htargetInside⟩ :=
      htargets ⟨offset + index, hlt⟩ hinside (by
        rw [List.get_eq_getElem, hsame]
        exact hallowed)
    obtain ⟨hne, hnamed⟩ := mem_targets.mp htarget
    obtain ⟨place, hplace⟩ : ∃ place, (target : Nat) = offset + place :=
      ⟨target - offset, by have := hoffset target htargetInside; omega⟩
    simp only [Fin.getElem_fin, hsame] at hnamed
    refine ⟨place, entries[target], ?_, ?_, hnamed⟩
    · rintro rfl
      exact hne (Fin.ext hplace)
    · refine (hpart place _).mpr ⟨hplace ▸ htargetInside, ?_⟩
      rw [← hplace]
      exact List.getElem?_eq_getElem target.isLt

end Closed

namespace SnapProfile

/-- The mode leaves the entry out of the plan. -/
def Dropped (profile : SnapProfile)
    (index : Fin profile.fallbackEntries.length) : Prop :=
  match profile.mode with
  | .auto => False
  | .directOnly => profile.directEndpoints.length ≤ index
  | .bridgesOnly => index < profile.directEndpoints.length
  | .onionOnly => index < profile.directEndpoints.length

/-- An entry that stays names adapters, and all entries it leads to go. -/
def Stranded (profile : SnapProfile)
    (index : Fin profile.fallbackEntries.length) : Prop :=
  ¬ profile.Dropped index ∧
    (profile.fallbackEntries.get index).allowed ≠ [] ∧
    ∀ target ∈ FallbackEntry.targets profile.fallbackEntries index,
      profile.Dropped target

end SnapProfile

/-- Every candidate that names adapters has another candidate to fall back
to. -/
def SnapPlan.FallbackKept (plan : SnapPlan) : Prop :=
  ∀ (before : List SnapCandidate) (candidate : SnapCandidate)
    (after : List SnapCandidate),
    plan.candidates = before ++ candidate :: after →
      candidate.allowedFallback ≠ [] →
        ∃ other ∈ before ++ after,
          SnapPlan.candidateAllowsFallback candidate other = true

section Plan

variable {text} {profile : SnapProfile} {plan : SnapPlan} {peerHost : String}
  {peerPort : UInt16}

theorem candidateAllowsFallback_iff {source target : SnapCandidate}
    (hallowed : source.allowedFallback ≠ []) :
    SnapPlan.candidateAllowsFallback source target = true ↔
      target.adapter ∈ source.allowedFallback := by
  rw [SnapPlan.candidateAllowsFallback, Bool.or_eq_true,
    List.isEmpty_iff, List.contains_iff_mem]
  exact or_iff_right hallowed

theorem fallbackKept_iff_closed : plan.FallbackKept ↔
    Closed (plan.candidates.map SnapCandidate.entry) := by
  constructor
  · intro hkept before entry after hsplit hallowed
    obtain ⟨front, rest, hcandidates, rfl, hrest⟩ :=
      List.map_eq_append_iff.mp hsplit
    obtain ⟨candidate, back, rfl, rfl, rfl⟩ := List.map_eq_cons_iff.mp hrest
    obtain ⟨other, hother, hallows⟩ :=
      hkept front candidate back hcandidates hallowed
    refine ⟨other.entry, ?_, (candidateAllowsFallback_iff hallowed).mp
      hallows⟩
    rw [← List.map_append]
    exact List.mem_map_of_mem hother
  · intro hclosed before candidate after hsplit hallowed
    obtain ⟨entry, hentry, hnamed⟩ := hclosed (before.map _) candidate.entry
      (after.map _) (by rw [hsplit, List.map_append, List.map_cons]) hallowed
    rw [← List.map_append] at hentry
    obtain ⟨other, hother, rfl⟩ := List.mem_map.mp hentry
    exact ⟨other, hother, (candidateAllowsFallback_iff hallowed).mpr hnamed⟩

/-- A plan exists for a profile that passes, and its candidates are those of
the entries that stay. -/
theorem plan_eq_ok (hplan : profile.plan text peerHost peerPort = .ok plan) :
    profile.validate text = .ok () ∧
      (plan.candidates.map SnapCandidate.entry).Perm
        ((profile.directCandidates peerHost peerPort).map
          SnapCandidate.entry ++
        (profile.bridgeCandidates peerHost peerPort).map
          SnapCandidate.entry) := by
  simp only [SnapProfile.plan, then_eq_ok] at hplan
  obtain ⟨hvalid, -, -, hrest⟩ := hplan
  cases hrest
  refine ⟨hvalid, ?_⟩
  rw [List.map_map, ← List.map_append]
  exact (List.mergeSort_perm _ _).map _

/-- A profile that passes has a plan for every peer that passes. -/
theorem plan_of_valid (hvalid : profile.validate text = .ok ())
    (hhost : validateHost "peer endpoint host" peerHost = .ok ())
    (hport : validatePort "peer endpoint port" peerPort = .ok ()) :
    ∃ plan, profile.plan text peerHost peerPort = .ok plan := by
  simp only [SnapProfile.plan, hvalid, hhost, hport]
  exact ⟨_, rfl⟩

theorem map_mapIdx_entry {A : Type} {items : List A}
    {make : Nat → A → SnapCandidate} {entry : A → FallbackEntry}
    (hmake : ∀ index item, (make index item).entry = entry item) :
    (items.mapIdx make).map SnapCandidate.entry = items.map entry := by
  apply List.ext_getElem (by simp)
  intro index hleft hright
  simp [hmake]

/-- The candidates in front of the bridges, by what decides about fallback. -/
theorem directCandidates_entries (profile : SnapProfile) (peerHost : String)
    (peerPort : UInt16) :
    (profile.directCandidates peerHost peerPort).map SnapCandidate.entry =
      if profile.includeDirect then
        if profile.directEndpoints = [] then [⟨"direct-tcp", []⟩]
        else profile.directEndpoints.map fun item =>
          ⟨item.adapter, item.allowedFallback⟩
      else [] := by
  rw [SnapProfile.directCandidates]
  split
  · split
    · rfl
    · exact map_mapIdx_entry fun _ _ => rfl
  · rfl

theorem bridgeCandidates_entries (profile : SnapProfile) (peerHost : String)
    (peerPort : UInt16) :
    (profile.bridgeCandidates peerHost peerPort).map SnapCandidate.entry =
      if profile.includeBridges then
        profile.bridges.map fun item => ⟨item.adapter, item.allowedFallback⟩
      else [] := by
  rw [SnapProfile.bridgeCandidates]
  split
  · exact map_mapIdx_entry fun _ _ => rfl
  · rfl

/-- With nothing dropped the checked graph is enough. -/
theorem closed_of_graph {entries : List FallbackEntry}
    (hgraph : FallbackGraphValid entries) : Closed entries := by
  have hpart : ∀ (index : Nat) (entry : FallbackEntry),
      entries[index]? = some entry ↔
        True ∧ entries[0 + index]? = some entry := by
    intro index entry
    rw [Nat.zero_add, true_and]
  refine (@closed_part_iff entries entries 0 (fun _ => True) hpart
    fun _ _ => Nat.zero_le _).mpr ?_
  intro index _ hallowed
  obtain ⟨target, hleads⟩ := hgraph.resolved index hallowed
  exact ⟨target, mem_targets.mpr hleads, trivial⟩

/-- One more candidate that allows everything changes nothing. -/
theorem Closed.cons {entries : List FallbackEntry} (hclosed : Closed entries)
    {entry : FallbackEntry} (hfree : entry.allowed = []) :
    Closed (entry :: entries) := by
  intro before other after hsplit hallowed
  cases before with
  | nil =>
      cases hsplit
      exact absurd hfree hallowed
  | cons first before =>
      cases hsplit
      obtain ⟨target, htarget, hnamed⟩ := hclosed before other after rfl
        hallowed
      exact ⟨target, List.mem_cons_of_mem _ htarget, hnamed⟩

theorem not_stranded_iff {profile : SnapProfile} {inside : Nat → Prop}
    (hinside : ∀ index : Fin profile.fallbackEntries.length,
      inside index ↔ ¬ profile.Dropped index) :
    (∀ index, ¬ profile.Stranded index) ↔
      ∀ index : Fin profile.fallbackEntries.length, inside index →
        (profile.fallbackEntries.get index).allowed ≠ [] →
          ∃ target ∈ FallbackEntry.targets profile.fallbackEntries index,
            inside target := by
  apply forall_congr'
  intro index
  simp only [SnapProfile.Stranded, hinside]
  constructor
  · intro hnot hkept hallowed
    by_contra hnone
    refine hnot ⟨hkept, hallowed, fun target htarget => ?_⟩
    by_contra hstays
    exact hnone ⟨target, htarget, hstays⟩
  · rintro htargets ⟨hkept, hallowed, hall⟩
    obtain ⟨target, htarget, hstays⟩ := htargets hkept hallowed
    exact hstays (hall target htarget)

/-- The entries in front of a place, and those from it on, are parts of the
list of all. -/
theorem closed_left_iff {left right : List FallbackEntry} :
    Closed left ↔ ∀ index : Fin (left ++ right).length,
      (index : Nat) < left.length → (left ++ right)[index].allowed ≠ [] →
        ∃ target ∈ FallbackEntry.targets (left ++ right) index,
          (target : Nat) < left.length := by
  refine @closed_part_iff (left ++ right) left 0 (· < left.length) ?_
    fun _ _ => Nat.zero_le _
  intro index entry
  rw [Nat.zero_add]
  constructor
  · intro hentry
    have hlt := (List.getElem?_eq_some_iff.mp hentry).1
    exact ⟨hlt, by rw [List.getElem?_append_left hlt, hentry]⟩
  · rintro ⟨hlt, hentry⟩
    rwa [List.getElem?_append_left hlt] at hentry

theorem closed_right_iff {left right : List FallbackEntry} :
    Closed right ↔ ∀ index : Fin (left ++ right).length,
      left.length ≤ (index : Nat) → (left ++ right)[index].allowed ≠ [] →
        ∃ target ∈ FallbackEntry.targets (left ++ right) index,
          left.length ≤ (target : Nat) := by
  refine @closed_part_iff (left ++ right) right left.length
    (left.length ≤ ·) ?_ fun _ hle => hle
  intro index entry
  have hle := Nat.le_add_right left.length index
  rw [List.getElem?_append_right hle, Nat.add_sub_cancel_left]
  exact (and_iff_right hle).symm

theorem fallbackEntries_eq (profile : SnapProfile) :
    profile.fallbackEntries =
      (profile.directEndpoints.map fun item =>
        (⟨item.adapter, item.allowedFallback⟩ : FallbackEntry)) ++
      profile.bridges.map fun item =>
        ⟨item.adapter, item.allowedFallback⟩ := rfl

theorem closed_direct_iff (hmode : profile.mode = .directOnly) :
    Closed (profile.directEndpoints.map fun item =>
      ⟨item.adapter, item.allowedFallback⟩) ↔
        ∀ index, ¬ profile.Stranded index := by
  rw [@not_stranded_iff profile (· < profile.directEndpoints.length) fun
    index => by simp [SnapProfile.Dropped, hmode]]
  have hleft := @closed_left_iff (profile.directEndpoints.map fun item =>
    ⟨item.adapter, item.allowedFallback⟩) (profile.bridges.map fun item =>
      ⟨item.adapter, item.allowedFallback⟩)
  rw [List.length_map] at hleft
  exact hleft

theorem closed_bridges_iff
    (hmode : profile.mode = .bridgesOnly ∨ profile.mode = .onionOnly) :
    Closed (profile.bridges.map fun item =>
      ⟨item.adapter, item.allowedFallback⟩) ↔
        ∀ index, ¬ profile.Stranded index := by
  rw [@not_stranded_iff profile (profile.directEndpoints.length ≤ ·) fun
    index => by rcases hmode with hmode | hmode <;>
      simp [SnapProfile.Dropped, hmode]]
  have hright := @closed_right_iff (profile.directEndpoints.map fun item =>
    ⟨item.adapter, item.allowedFallback⟩) (profile.bridges.map fun item =>
      ⟨item.adapter, item.allowedFallback⟩)
  rw [List.length_map] at hright
  exact hright

/-- A plan keeps what the check of the profile promised just when the mode
strands no entry; in the mode that drops nothing it always does. -/
theorem plan_fallbackKept_iff
    (hplan : profile.plan text peerHost peerPort = .ok plan) :
    plan.FallbackKept ↔ ∀ index, ¬ profile.Stranded index := by
  obtain ⟨hvalid, hperm⟩ := plan_eq_ok hplan
  have hprofile := validate_eq_ok_iff.mp hvalid
  have hgraph := validateGraph_eq_ok_iff.mp hprofile.graph
  have hentries := hprofile.mode
  rw [directCandidates_entries, bridgeCandidates_entries] at hperm
  rw [fallbackKept_iff_closed, closed_perm_iff hperm]
  cases hmode : profile.mode with
  | auto =>
      have hclosed := closed_of_graph hgraph
      rw [fallbackEntries_eq] at hclosed
      refine iff_of_true ?_ fun index hstranded => ?_
      · simp only [SnapProfile.includeDirect, SnapProfile.includeBridges,
          hmode, true_or, decide_true, if_true]
        split
        · rename_i hnone
          rw [hnone] at hclosed
          exact hclosed.cons rfl
        · exact hclosed
      · obtain ⟨-, hallowed, hdropped⟩ := hstranded
        obtain ⟨target, hleads⟩ := hgraph.resolved index hallowed
        have hnever := hdropped target (mem_targets.mpr hleads)
        rw [SnapProfile.Dropped, hmode] at hnever
        exact hnever
  | directOnly =>
      rw [SnapProfile.validateMode, hmode] at hentries
      have hsome := require_eq_ok_iff.mp hentries
      simp only [SnapProfile.includeDirect, SnapProfile.includeBridges,
        hmode, or_true, decide_true, if_true, if_neg hsome, reduceCtorEq,
        or_self, decide_false, Bool.false_eq_true, if_false, List.append_nil]
      exact closed_direct_iff hmode
  | bridgesOnly =>
      simp only [SnapProfile.includeDirect, SnapProfile.includeBridges,
        hmode, reduceCtorEq, or_self, true_or, or_true, decide_true,
        decide_false, Bool.false_eq_true, if_false, if_true,
        List.nil_append]
      exact closed_bridges_iff (Or.inl hmode)
  | onionOnly =>
      simp only [SnapProfile.includeDirect, SnapProfile.includeBridges,
        hmode, reduceCtorEq, or_self, or_true, decide_true, decide_false,
        Bool.false_eq_true, if_false, if_true, List.nil_append]
      exact closed_bridges_iff (Or.inr hmode)

end Plan

namespace SnapWitness

def relayBridge (label : String) (port priority weight : UInt16) : Bridge :=
  ⟨label, "127.0.0.2", port, none, none, "quic", "quic", false, none, none,
    priority, weight, none, [], none, none, none, none, none⟩

/-- A direct endpoint may fall back to QUIC, which only a bridge has. -/
def directOnly : SnapProfile where
  version := 1
  profileName := "default"
  mode := .directOnly
  peerAlias := "peer1"
  connectTimeoutSec := defaultConnectTimeout
  directEndpoints := [⟨"127.0.0.1", 7000, "tcp", "direct-tcp", false, none,
    none, 100, 100, none, ["quic"]⟩]
  bridges := [relayBridge "relay" 7001 100 100]
  retryPolicy := .default
  edgeProfiles := []
  transportPreferences := .default

/-- The same endpoint with its bridges: one comes before it, the other after
it although its weight is larger. -/
def auto : SnapProfile :=
  { directOnly with
    mode := .auto
    bridges := [relayBridge "relay" 7001 50 100,
      relayBridge "spare" 7002 100 200] }

def bridgeText (label port priority weight : String) : String :=
  "\x7b\"label\":\"" ++ label ++
  "\",\"ip\":\"127.0.0.2\",\"port\":" ++ port ++
  ",\"key_file\":null,\"route_file\":null,\"transport\":\"quic\",\"adap" ++
  "ter\":\"quic\",\"tls_enabled\":false,\"sni\":null,\"edge_label\":nul" ++
  "l,\"priority\":" ++ priority ++
  ",\"weight\":" ++ weight ++
  ",\"timeout_sec\":null,\"allowed_fallback\":[],\"tls_ca_file\":null," ++
  "\"tls_cert_sha256\":null,\"ws_path\":null,\"shroud_profile\":null" ++
  "\x7d"

def profileText (mode bridges : String) : String :=
  "\x7b\"version\":1,\"profile_name\":\"default\",\"mode\":\"" ++ mode ++
  "\",\"peer_alias\":\"peer1\",\"connect_timeout_sec\":8.0,\"direct_end" ++
  "points\":[\x7b\"ip\":\"127.0.0.1\",\"port\":7000,\"transport\":\"tcp" ++
  "\",\"adapter\":\"direct-tcp\",\"tls_enabled\":false,\"sni\":null,\"e" ++
  "dge_label\":null,\"priority\":100,\"weight\":100,\"timeout_sec\":nul" ++
  "l,\"allowed_fallback\":[\"quic\"]\x7d],\"bridges\":[" ++ bridges ++
  "],\"retry_policy\":\x7b\"rounds\":1,\"backoff_base_sec\":0.6,\"backo" ++
  "ff_max_sec\":8.0,\"jitter_ratio\":0.15,\"round_order\":\"stable\",\"" ++
  "shuffle_seed\":null,\"max_total_attempts\":0,\"max_elapsed_sec\":0.0" ++
  "\x7d,\"edge_profiles\":\x7b\x7d,\"transport_preferences\":\x7b\"adap" ++
  "ter_order\":[\"direct-tcp\",\"bridge-onion-tcp\",\"bridge-tls\",\"br" ++
  "idge-ws\",\"edge-relay\",\"shroud-tcp\",\"mesh-dtn-local\",\"mule-us" ++
  "b\"]\x7d\x7d"

def directOnlyText : String :=
  profileText "direct-only" (bridgeText "relay" "7001" "100" "100")

def autoText : String :=
  profileText "auto" (bridgeText "relay" "7001" "50" "100" ++ "," ++
    bridgeText "spare" "7002" "100" "200")

def payloadText (adapter allowed kind priority source weight : String) :
    String :=
  "\x7b\"adapter\":\"" ++ adapter ++
  "\",\"allowed_fallback\":[" ++ allowed ++
  "],\"edge_label\":null,\"kind\":\"" ++ kind ++
  "\",\"priority\":" ++ priority ++
  ",\"route_file\":null,\"shroud_profile\":null,\"sni\":null,\"source\"" ++
  ":\"" ++ source ++
  "\",\"target_ip\":\"127.0.0.1\",\"target_port\":7000,\"timeout_sec\":" ++
  "null,\"tls_ca_file\":null,\"tls_cert_sha256\":null,\"tls_enabled\":f" ++
  "alse,\"weight\":" ++ weight ++
  ",\"ws_path\":null\x7d"

def directPayload : String :=
  payloadText "direct-tcp" "\"quic\"" "direct" "100"
    "profile_direct_endpoint" "100"

def relayPayload : String :=
  payloadText "quic" "" "bridge" "50" "bridge:relay" "100"

def sparePayload : String :=
  payloadText "quic" "" "bridge" "100" "bridge:spare" "200"

def localAddresses : AddressText where
  parseIp value :=
    if value = "127.0.0.1" then some (.ofOctets 127 0 0 1)
    else if value = "127.0.0.2" then some (.ofOctets 127 0 0 2)
    else none
  showIp ip :=
    if ip = .ofOctets 127 0 0 1 then "127.0.0.1" else "127.0.0.2"
  parseSocket _ := none

/-- What the serializers and SHA-256 make of the two profiles and their
candidates. -/
def writers : SnapText where
  addresses := localAddresses
  profileJson profile :=
    if profile.mode = .auto then autoText else directOnlyText
  valueJson
    | .object members =>
        match members.lookup "source" with
        | some (.string "bridge:relay") => relayPayload
        | some (.string "bridge:spare") => sparePayload
        | _ => directPayload
    | _ => ""
  sha256 bytes := ⟨bigEndian 32
    (if bytes = textBytes directOnlyText then
      0xd6cf53d9532c0116719842120d77863f7ef2bc15cb534b26e997a5fabfe407dc
    else if bytes = textBytes autoText then
      0x422b194d6a146153be9d9eabd5bfc1bab88dec98f79e27d016cdcb54756c1255
    else if bytes = textBytes relayPayload then
      0x9734df0ae00b133255c16c2f63677318fe92919082b6007a1837043a9073ccef
    else if bytes = textBytes sparePayload then
      0x62c4c9d8cc8f8100008c3998059ebfc5bf5d7944c3f0ed4aed21cab6158e5c33
    else
      0xf01dbe71cabf773f6d11fe2df7e6fe49739dd5abeb56c1bf5a77c6bf3bd04eb3),
    by simp⟩

theorem graphValid_directOnly :
    FallbackGraphValid directOnly.fallbackEntries where
  named := by decide
  resolved := by decide
  acyclic := not_transGen_of_lt (by decide)

theorem validate_directOnly : directOnly.validate writers = .ok () :=
  validate_eq_ok_iff.mpr {
    version := rfl
    name := by decide +kernel
    peer := by decide +kernel
    timeout := by decide +kernel
    retry := by decide +kernel
    mode := by decide
    directCount := by decide
    bridgeCount := by decide
    order := by decide +kernel
    bridges := ⟨["relay"], by decide +kernel⟩
    endpoints := by decide +kernel
    edges := by decide
    graph := validateGraph_eq_ok_iff.mpr graphValid_directOnly }

theorem graphValid_auto : FallbackGraphValid auto.fallbackEntries :=
  ⟨by decide, by decide, not_transGen_of_lt (by decide)⟩

theorem validate_auto : auto.validate writers = .ok () :=
  validate_eq_ok_iff.mpr {
    validate_eq_ok_iff.mp validate_directOnly with
    mode := rfl
    bridgeCount := by decide
    bridges := ⟨["spare", "relay"], by decide +kernel⟩
    graph := validateGraph_eq_ok_iff.mpr graphValid_auto }

theorem plan_auto : ∃ plan,
    auto.plan writers "127.0.0.1" 7000 = .ok plan :=
  plan_of_valid validate_auto (by decide +kernel) (by decide)

theorem plan_directOnly : ∃ plan,
    directOnly.plan writers "127.0.0.1" 7000 = .ok plan :=
  plan_of_valid validate_directOnly (by decide +kernel) (by decide)

theorem fallback_is_lost : ∃ plan,
    directOnly.plan writers "127.0.0.1" 7000 = .ok plan ∧
      ¬ plan.FallbackKept := by
  obtain ⟨plan, hplan⟩ := plan_directOnly
  refine ⟨plan, hplan, fun hkept => ?_⟩
  have hclosed := (fallbackKept_iff_closed.mp hkept).perm (plan_eq_ok hplan).2
  have hentries : (directOnly.directCandidates "127.0.0.1" 7000).map
      SnapCandidate.entry ++ (directOnly.bridgeCandidates "127.0.0.1"
        7000).map SnapCandidate.entry = [⟨"direct-tcp", ["quic"]⟩] := rfl
  obtain ⟨other, hother, -⟩ := hclosed [] ⟨"direct-tcp", ["quic"]⟩ []
    hentries (List.cons_ne_nil _ _)
  exact absurd hother List.not_mem_nil

/-- The fallback that the one mode loses is kept by the other. -/
theorem plan_fallbackKept_iff_directOnly :
    (∃ plan, directOnly.plan writers "127.0.0.1" 7000 = .ok plan ∧
      (plan.FallbackKept ↔ ∀ index, ¬ directOnly.Stranded index)) ∧
    ∃ plan, auto.plan writers "127.0.0.1" 7000 = .ok plan ∧
      (∀ index, ¬ auto.Stranded index) ∧ plan.FallbackKept := by
  obtain ⟨plan, hplan⟩ := plan_directOnly
  obtain ⟨kept, hkept⟩ := plan_auto
  have hnone : ∀ index, ¬ auto.Stranded index := by
    rintro index ⟨-, hallowed, hdropped⟩
    obtain ⟨target, hleads⟩ := graphValid_auto.resolved index hallowed
    exact hdropped target (mem_targets.mpr hleads)
  exact ⟨⟨plan, hplan, plan_fallbackKept_iff hplan⟩, kept, hkept, hnone,
    (plan_fallbackKept_iff hkept).mpr hnone⟩

end SnapWitness

end Shph.SnapPath
