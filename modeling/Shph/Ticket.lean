/-
Join tickets: how a ticket is checked and written, and how the text of a
ticket is read again.  Tickets of an older form are brought to the present one
before they are read.
-/
import Shph.Configuration
import Shph.Library.JsonLayout
import Shph.ProfileTier
import Shph.SnapReading

namespace Shph

open ByteCodec ControlPlane JsonLayout JsonTree OrderedTable
open Shph.Configuration (toAsciiLowercase)
open Identity (isControl)
open SnapPath (readBool readOption required defaulted structOf)

/-- The named profiles of the older shroud. -/
inductive ShroudName where
  | balanced
  | lowLatency
  | bulk
  | randomizedLab
  | extremeLab
  | tunedLow
  | tunedMedium
  | tunedHigh
deriving Repr, DecidableEq

def ShroudName.name : ShroudName → String
  | .balanced => "balanced"
  | .lowLatency => "low-latency"
  | .bulk => "bulk"
  | .randomizedLab => "randomized-lab"
  | .extremeLab => "extreme-lab"
  | .tunedLow => "tuned-low"
  | .tunedMedium => "tuned-medium"
  | .tunedHigh => "tuned-high"

/-- The selection by a name in lower case. -/
def selectShroud (name : String) : Option (Option ShroudName) :=
  match name with
  | "off" | "none" | "disabled" => some none
  | "low" | "low-latency" => some (some .lowLatency)
  | "medium" | "balanced" => some (some .balanced)
  | "high" | "bulk" => some (some .bulk)
  | "extreme" | "extreme-lab" => some (some .extremeLab)
  | "randomized-lab" => some (some .randomizedLab)
  | "tuned" | "optimized" | "tuned-medium" | "optimized-medium" =>
      some (some .tunedMedium)
  | "tuned-low" | "optimized-low" => some (some .tunedLow)
  | "tuned-high" | "optimized-high" => some (some .tunedHigh)
  | _ => none

def shroudProfileBySelection (name : String) : Option (Option ShroudName) :=
  selectShroud (toAsciiLowercase (trim name))

def ProfileTier.fromShroudProfile (profile : ShroudName) : ProfileTier :=
  match profile.name with
  | "tuned-low" => .tunedLow
  | "tuned-medium" => .tunedMedium
  | "tuned-high" => .tunedHigh
  | "low-latency" => .low
  | "bulk" | "extreme-lab" => .high
  | _ => .medium

/-- The six names of tiers a setting may have. -/
def tierByName (value : String) : Option ProfileTier :=
  match toAsciiLowercase (trim value) with
  | "low" => some .low
  | "medium" => some .medium
  | "high" => some .high
  | "tuned-low" => some .tunedLow
  | "tuned-medium" => some .tunedMedium
  | "tuned-high" => some .tunedHigh
  | _ => none

/-- How the program selects the tier of a configuration or a ticket. -/
def parsePhantomOneProfile (value : String) : Except ShphError ProfileTier :=
  okOr (tierByName value) (.invalidArgument
    ("Phantom One profile must be low, medium, high, tuned-low, " ++
      "tuned-medium, or tuned-high"))

structure JoinTicket where
  endpoint : String
  transport : String
  shroudProfile : Option String
  phantomOne : Bool
  phantomOneProfile : Option String
  serverIdentityB64 : String
  serverSigningB64 : String
deriving Repr, DecidableEq

/-- The tier the program selects for a ticket. -/
def JoinTicket.tier (ticket : JoinTicket) : Option ProfileTier :=
  if ticket.phantomOne then
    ticket.phantomOneProfile.bind fun profile =>
      (parsePhantomOneProfile profile).toOption
  else none

def ticketPrefix : String := "shph://v1:"

def maxTicketBytes : Nat := 8 * 1024

section Validation

def validatePhantomOneProfile (value : Option String) :
    Except ShphError ProfileTier := do
  let value ← okOr value (.invalidArgument
    "Phantom One tickets require phantom_one_profile")
  okOr (tierByName value) (.invalidArgument
    ("unknown Phantom One profile; expected low, medium, high, tuned-low, " ++
      "tuned-medium, or tuned-high"))

def validateKey (value label : String) : Except ShphError Unit := do
  let raw ← okOr (Base64.decode value)
    (.invalidArgument (label ++ " is not valid base64"))
  ensure (raw.length = 32)
    (.invalidArgument (label ++ " must decode to 32 bytes"))

def parseTicketEndpoint (text : String) : Except ShphError Endpoint :=
  match Endpoint.parse text with
  | .ok endpoint => .ok endpoint
  | .error error =>
      .error (.invalidArgument ("invalid ticket endpoint: " ++ error))

/-- A ticket is of one of two kinds, each with its own profile. -/
def validateMorphology (ticket : JoinTicket) : Except ShphError Unit :=
  if ticket.phantomOne then do
    ensure (ticket.shroudProfile = none) (.invalidArgument
      "Phantom One tickets must not contain a Shroud 2 profile")
    let _ ← validatePhantomOneProfile ticket.phantomOneProfile
  else do
    let profile ← okOr ticket.shroudProfile
      (.invalidArgument "Shroud 2 tickets require shroud_profile")
    ensure (shroudProfileBySelection profile ≠ none)
      (.invalidArgument "ticket contains an unknown Shroud profile")
    ensure (ticket.phantomOneProfile = none) (.invalidArgument
      "Shroud 2 tickets must not contain phantom_one_profile")

def validateTicket (ticket : JoinTicket) : Except ShphError Unit := do
  let endpoint ← parseTicketEndpoint ticket.endpoint
  ensure (endpoint.port ≠ 0)
    (.invalidArgument "ticket endpoint port must be non-zero")
  ensure (¬ endpoint.host.toList.any fun char =>
      isControl char || isWhitespace char)
    (.invalidArgument
      "ticket endpoint host contains whitespace or control characters")
  ensure (ticket.transport = "tcp" ∨ ticket.transport = "quic" ∨
      ticket.transport = "quic-standard")
    (.invalidArgument "ticket transport must be tcp, quic, or quic-standard")
  validateMorphology ticket
  validateKey ticket.serverIdentityB64 "server identity"
  validateKey ticket.serverSigningB64 "server signing key"

end Validation

namespace JoinTicket

section Writing

def boolText (value : Bool) : List Char :=
  if value then "true".toList else "false".toList

def stringText (value : String) : List Char := FlatJson.quote value.toList

/-- The members that are written, with the texts of their values. -/
def writtenMembers (ticket : JoinTicket) : List (String × List Char) :=
  membersOf [("endpoint", some (stringText ticket.endpoint)),
    ("transport", some (stringText ticket.transport)),
    ("shroud_profile", ticket.shroudProfile.map stringText),
    ("phantom_one", some (boolText ticket.phantomOne)),
    ("phantom_one_profile", ticket.phantomOneProfile.map stringText),
    ("server_identity_b64", some (stringText ticket.serverIdentityB64)),
    ("server_signing_b64", some (stringText ticket.serverSigningB64))]

/-- `serde_json::to_vec`. -/
def toVec (ticket : JoinTicket) : Bytes :=
  textBytes (String.ofList (object .compact 0 ticket.writtenMembers))

def encode (ticket : JoinTicket) : Except ShphError String := do
  validateTicket ticket
  return ticketPrefix ++
    String.ofList (Base64.encodeUrlDigits ticket.toVec)

end Writing

section Reading

def fieldNames : List String :=
  ["endpoint", "transport", "shroud_profile", "phantom_one",
    "phantom_one_profile", "server_identity_b64", "server_signing_b64"]

def ofFields (field : String → Option Json) : Option JoinTicket := do
  pure {
    endpoint := ← required Json.asString (field "endpoint")
    transport := ← required Json.asString (field "transport")
    shroudProfile := ← defaulted (readOption Json.asString) none
      (field "shroud_profile")
    phantomOne := ← defaulted readBool false (field "phantom_one")
    phantomOneProfile := ← defaulted (readOption Json.asString) none
      (field "phantom_one_profile")
    serverIdentityB64 := ← required Json.asString
      (field "server_identity_b64")
    serverSigningB64 := ← required Json.asString
      (field "server_signing_b64") }

/-- `serde_json::from_value`. -/
def fromValue (value : Json) : Option JoinTicket :=
  (structOf fieldNames value).bind ofFields

def legacyVersion (value : Json) : Except ShphError Bool :=
  match value.asString with
  | some "2.0" => .ok false
  | some "2.1" => .ok true
  | _ => .error (.invalidArgument
      "legacy ticket shroud_version must be 2.0 or 2.1")

/-- The tier an older profile is brought to. -/
def legacyTier (profile : String) : ProfileTier :=
  (((shroudProfileBySelection profile).getD none).map
    ProfileTier.fromShroudProfile).getD .medium

/-- Set `phantom_one`, or check it against the version. -/
def migratePhantomOne (migrated : Bool) (object : List (String × Json)) :
    Except ShphError (List (String × Json)) :=
  match (object.lookup "phantom_one").bind readBool with
  | some configured => do
      ensure (configured = migrated) (.invalidArgument
        "legacy ticket shroud_version conflicts with phantom_one")
      return object
  | none => .ok (insert "phantom_one" (.bool migrated) object)

/-- The profile of the shroud becomes a tier. -/
def migrateProfile (object : List (String × Json)) : List (String × Json) :=
  let legacyProfile :=
    ((object.lookup "shroud_profile").bind Json.asString).getD "medium"
  erase "shroud_profile" (insert "phantom_one_profile"
    (.string (legacyTier legacyProfile).asStr) object)

def migrateObject (object : List (String × Json)) :
    Except ShphError (List (String × Json)) :=
  match object.lookup "shroud_version" with
  | none => .ok object
  | some oldValue => do
      let object := erase "shroud_version" object
      let migrated ← legacyVersion oldValue
      let object ← migratePhantomOne migrated object
      if migrated ∧ object.lookup "phantom_one_profile" = none then
        return migrateProfile object
      else return object

def migrateLegacyTicket : Json → Except ShphError Json
  | .object object => do
      let object ← migrateObject object
      return .object object
  | _ => .error (.invalidArgument "ticket payload must be a JSON object")

/-- Reading with the JSON reader as a parameter. -/
def decode (readJson : Bytes → Option Json) (value : String) :
    Except ShphError JoinTicket := do
  let encoded ← okOr (stripFront ticketPrefix (trim value))
    (.invalidArgument "ticket must start with shph://v1:")
  ensure (¬ (encoded = "" ∨ maxTicketBytes < encoded.utf8ByteSize))
    (.invalidArgument "ticket payload is empty or exceeds the safety limit")
  let payload ← okOr (Base64.decodeUrlDigits encoded.toList)
    (.invalidArgument "ticket is not valid base64url")
  ensure (payload.length ≤ maxTicketBytes)
    (.invalidArgument "decoded ticket exceeds the safety limit")
  let value ← okOr (readJson payload)
    (.invalidArgument "ticket payload is invalid JSON")
  let value ← migrateLegacyTicket value
  let ticket ← okOr (fromValue value)
    (.invalidArgument "ticket payload is invalid JSON")
  validateTicket ticket
  return ticket

end Reading

section RoundTrip

/-- The members of the tree a written ticket stands for. -/
def members (ticket : JoinTicket) : List (String × Option Json) :=
  [("endpoint", some (.string ticket.endpoint)),
    ("transport", some (.string ticket.transport)),
    ("shroud_profile", ticket.shroudProfile.map .string),
    ("phantom_one", some (.bool ticket.phantomOne)),
    ("phantom_one_profile", ticket.phantomOneProfile.map .string),
    ("server_identity_b64", some (.string ticket.serverIdentityB64)),
    ("server_signing_b64", some (.string ticket.serverSigningB64))]

def object (ticket : JoinTicket) : List (String × Json) :=
  ofEntries (membersOf ticket.members)

/-- How many bytes the text of a ticket takes. -/
def jsonBytes (ticket : JoinTicket) : Nat :=
  objectBytes .compact 0 (membersOf
    [("endpoint", some (quoteBytes ticket.endpoint)),
      ("transport", some (quoteBytes ticket.transport)),
      ("shroud_profile", ticket.shroudProfile.map quoteBytes),
      ("phantom_one", some (if ticket.phantomOne then 4 else 5)),
      ("phantom_one_profile", ticket.phantomOneProfile.map quoteBytes),
      ("server_identity_b64", some (quoteBytes ticket.serverIdentityB64)),
      ("server_signing_b64", some (quoteBytes ticket.serverSigningB64))])

variable {ticket : JoinTicket} {text : String}
  {readJson : Bytes → Option Json}

theorem membersOf_map {V W : Type} (size : V → W)
    (members : List (String × Option V)) :
    (membersOf members).map (Prod.map id size) =
      membersOf (members.map fun member => (member.1, member.2.map size)) := by
  induction members with
  | nil => rfl
  | cons first rest ih =>
      obtain ⟨name, value⟩ := first
      cases value with
      | none => exact ih
      | some value => exact congrArg (List.cons (name, size value)) ih

theorem utf8Len_boolText (value : Bool) :
    String.utf8Len (boolText value) = if value then 4 else 5 := by
  cases value <;> decide

theorem toVec_length (ticket : JoinTicket) :
    ticket.toVec.length = ticket.jsonBytes := by
  have hsize : ∀ value : Option String,
      (value.map stringText).map String.utf8Len = value.map quoteBytes := by
    intro value
    rw [Option.map_map]
    rfl
  have hbytes : ∀ text : String, (textBytes text).length = text.utf8ByteSize :=
    fun _ => rfl
  rw [toVec, hbytes, String.utf8ByteSize_ofList, utf8Len_object,
    writtenMembers, membersOf_map]
  simp only [List.map_cons, List.map_nil, hsize, Option.map_some,
    utf8Len_boolText]
  rfl

theorem lookup_object :
    ∀ member ∈ ticket.members, ticket.object.lookup member.1 = member.2 :=
  forall_lookup_membersOf (show fieldNames.Nodup by decide)

/-- A JSON reader for the text of one ticket. -/
def readsOnly (ticket : JoinTicket) (payload : Bytes) : Option Json :=
  if payload = ticket.toVec then some (.object ticket.object) else none

theorem readsOnly_toVec (ticket : JoinTicket) :
    readsOnly ticket ticket.toVec = some (.object ticket.object) :=
  if_pos rfl

/-- The tree of a ticket is read as that ticket. -/
theorem fromValue_object (ticket : JoinTicket) :
    fromValue (.object ticket.object) = some ticket := by
  have hget := @lookup_object ticket
  simp only [members, List.forall_mem_cons] at hget
  obtain ⟨hendpoint, htransport, hshroud, hphantom, htier, hidentity, hsigning,
    -⟩ := hget
  have hnames : ∀ name ∈ ticket.object.map Prod.fst, name ∈ fieldNames := by
    intro name hname
    rw [object, mem_keys_ofEntries] at hname
    exact keys_membersOf.subset hname
  have hoption : ∀ value : Option String, defaulted (readOption Json.asString)
      none (value.map .string) = some value := by
    intro value
    cases value <;> rfl
  rw [fromValue, SnapPath.structOf_object hnames, Option.bind_some]
  simp only [ofFields, hendpoint, htransport, hshroud, hphantom, htier,
    hidentity, hsigning, hoption]
  rfl

/-- A ticket of today has no version, so nothing is migrated. -/
theorem migrateLegacyTicket_object (ticket : JoinTicket) :
    migrateLegacyTicket (.object ticket.object) =
      .ok (.object ticket.object) := by
  have hversion : ticket.object.lookup "shroud_version" = none := by
    rw [List.lookup_eq_none_iff]
    intro member hmember
    rw [bne_iff_ne]
    rintro hname
    have hkey : member.1 ∈ ticket.object.map Prod.fst :=
      List.mem_map_of_mem hmember
    rw [← hname, object, mem_keys_ofEntries] at hkey
    exact absurd (keys_membersOf.subset hkey) (show _ ∉ fieldNames by decide)
  simp only [migrateLegacyTicket, migrateObject, hversion, bind, Except.bind,
    pure, Except.pure]

theorem encode_eq_ok_iff : ticket.encode = .ok text ↔
    validateTicket ticket = .ok () ∧
      ticketPrefix ++ String.ofList (Base64.encodeUrlDigits ticket.toVec) =
        text := by
  rw [encode, bind_eq_ok_iff]
  simp only [pure_eq_ok_iff]
  exact ⟨fun ⟨_, hvalid, htext⟩ => ⟨hvalid, htext⟩,
    fun ⟨hvalid, htext⟩ => ⟨(), hvalid, htext⟩⟩

/-- The text behind the prefix has one byte for every digit. -/
theorem digits_utf8ByteSize (bytes : Bytes) :
    (String.ofList (Base64.encodeUrlDigits bytes)).utf8ByteSize =
      (4 * bytes.length + 2) / 3 := by
  rw [String.utf8ByteSize_ofList, ← Base64.encodeUrlDigits_length]
  have hplain := Base64.encodeUrlDigits_plain bytes
  generalize Base64.encodeUrlDigits bytes = digits at hplain
  induction digits with
  | nil => rfl
  | cons digit digits ih =>
      rw [List.forall_mem_cons] at hplain
      rw [String.utf8Len_cons, hplain.1.2, ih hplain.2, List.length_cons]

theorem trim_encoded (bytes : Bytes) :
    trim (ticketPrefix ++ String.ofList (Base64.encodeUrlDigits bytes)) =
      ticketPrefix ++ String.ofList (Base64.encodeUrlDigits bytes) := by
  have hall : ∀ value : Fin 64,
      isWhitespace (Base64.urlDigit value) = false := by
    decide
  apply trim_eq_self
  intro char hchar
  rw [String.toList_append, List.mem_append, String.toList_ofList] at hchar
  rcases hchar with hfront | hdigit
  · have hscheme : ∀ char ∈ ticketPrefix.toList,
        isWhitespace char = false := by
      simp [ticketPrefix, isWhitespace]
    exact hscheme char hfront
  · exact @Base64.forall_mem_encodeUrlDigits
      (fun char => isWhitespace char = false)
      (fun value hvalue => hall ⟨value, hvalue⟩) bytes char hdigit

/-- What decoding makes of an encoded ticket: it only looks at the size. -/
theorem decode_encoded
    (hreads : readJson ticket.toVec = some (.object ticket.object))
    (hencode : ticket.encode = .ok text) :
    decode readJson text =
      if ticket.jsonBytes ≤ 6144 then .ok ticket
      else .error (.invalidArgument
        "ticket payload is empty or exceeds the safety limit") := by
  obtain ⟨hvalid, rfl⟩ := encode_eq_ok_iff.mp hencode
  have hsize := digits_utf8ByteSize ticket.toVec
  rw [toVec_length] at hsize
  have hpositive : 2 ≤ ticket.jsonBytes := by
    rw [jsonBytes, membersOf_some, objectBytes, if_neg (List.cons_ne_nil _ _),
      List.map_cons, List.sum_cons, memberBytes]
    omega
  have hne : String.ofList (Base64.encodeUrlDigits ticket.toVec) ≠ "" := by
    intro hempty
    rw [hempty] at hsize
    have hzero : ("" : String).utf8ByteSize = 0 := rfl
    omega
  simp only [decode, trim_encoded, TcpUnderlay.stripFront_append, okOr, bind, Except.bind]
  by_cases hfits : ticket.jsonBytes ≤ 6144
  · have hcap : ¬ (String.ofList (Base64.encodeUrlDigits ticket.toVec) = "" ∨
        maxTicketBytes < (String.ofList
          (Base64.encodeUrlDigits ticket.toVec)).utf8ByteSize) := by
      rw [hsize, maxTicketBytes]
      exact not_or.mpr ⟨hne, by omega⟩
    have hpayload : ticket.toVec.length ≤ maxTicketBytes := by
      rw [toVec_length, maxTicketBytes]
      omega
    simp only [ensure, if_pos hcap, if_pos hpayload, if_pos hfits,
      String.toList_ofList, Base64.decodeUrlDigits_encodeUrlDigits, hreads,
      migrateLegacyTicket_object, fromValue_object, hvalid, pure, Except.pure]
  · have hcap : ¬ ¬ (String.ofList (Base64.encodeUrlDigits ticket.toVec) = "" ∨
        maxTicketBytes < (String.ofList
          (Base64.encodeUrlDigits ticket.toVec)).utf8ByteSize) := by
      rw [hsize, maxTicketBytes]
      exact not_not.mpr (.inr (by omega))
    simp only [ensure, if_neg hcap, if_neg hfits]

/-- A ticket that was handed out is read again just when its text is at most
6144 bytes long. -/
theorem decode_encode_iff
    (hreads : readJson ticket.toVec = some (.object ticket.object))
    (hencode : ticket.encode = .ok text) :
    decode readJson text = .ok ticket ↔ ticket.jsonBytes ≤ 6144 := by
  rw [decode_encoded hreads hencode]
  split
  · rename_i hfits
    exact iff_of_true rfl hfits
  · rename_i hfits
    exact iff_of_false nofun hfits

/-- A ticket for an ordinary server. -/
def sample : JoinTicket where
  endpoint := "198.51.100.10:443"
  transport := "tcp"
  shroudProfile := some "medium"
  phantomOne := false
  phantomOneProfile := none
  serverIdentityB64 := "AAAAAAAAAAAAAAAAAAAAAAAAAAAAAAAAAAAAAAAAAAA="
  serverSigningB64 := "AQEBAQEBAQEBAQEBAQEBAQEBAQEBAQEBAQEBAQEBAQE="

theorem decode_encode_sample :
    ∃ text, sample.encode = .ok text ∧
      decode (readsOnly sample) text = .ok sample := by
  have hvalid : validateTicket sample = .ok () := by decide +kernel
  have hencode := encode_eq_ok_iff.mpr ⟨hvalid, rfl⟩
  exact ⟨_, hencode, (decode_encode_iff (readsOnly_toVec sample) hencode).mpr
    (by decide +kernel)⟩

def wideHost (letters : Nat) : String :=
  String.ofList (List.replicate letters 'a')

/-- The same server under a name of so many letters. -/
def wideTicket (letters : Nat) : JoinTicket :=
  { sample with endpoint := formatSocketEndpoint (wideHost letters) 443 }

theorem eq_of_mem_wideHost {letters : Nat} {char : Char}
    (hchar : char ∈ (wideHost letters).toList) : char = 'a' := by
  rw [wideHost, String.toList_ofList] at hchar
  exact List.eq_of_mem_replicate hchar

theorem wideTicket_endpoint {letters : Nat} (hletters : letters ≠ 0) :
    Endpoint.parse (wideTicket letters).endpoint =
      .ok ⟨wideHost letters, 443⟩ := by
  have hne : (wideHost letters).toList ≠ [] := by
    rw [wideHost, String.toList_ofList]
    rw [ne_eq, List.replicate_eq_nil_iff]
    exact hletters
  obtain ⟨first, rest, hhost⟩ := List.exists_cons_of_ne_nil hne
  have hfirst : first = 'a' := eq_of_mem_wideHost (hhost ▸ List.mem_cons_self)
  have hport : (443 : UInt16) ≠ 0 := by decide
  refine @parse_format ⟨wideHost letters, 443⟩ ?_ hport ⟨?_, .inr ?_⟩
  · rw [isBlank, hhost, hfirst, List.all_cons]
    rfl
  · intro hinside
    exact absurd (eq_of_mem_wideHost (hinside.subset List.mem_cons_self))
      (by decide)
  · rw [hhost, hfirst, List.head?_cons]
    decide

theorem wideTicket_valid {letters : Nat} (hletters : letters ≠ 0) :
    validateTicket (wideTicket letters) = .ok () := by
  have hplain : ((wideHost letters).toList.any fun char =>
      isControl char || isWhitespace char) = false := by
    rw [List.any_eq_false]
    intro char hchar
    rw [eq_of_mem_wideHost hchar]
    decide
  have hmorphology : validateMorphology (wideTicket letters) = .ok () :=
    show validateMorphology sample = .ok () by decide +kernel
  have hidentity : validateKey (wideTicket letters).serverIdentityB64
      "server identity" = .ok () :=
    show validateKey sample.serverIdentityB64 _ = .ok () by decide +kernel
  have hsigning : validateKey (wideTicket letters).serverSigningB64
      "server signing key" = .ok () :=
    show validateKey sample.serverSigningB64 _ = .ok () by decide +kernel
  have hport : (443 : UInt16) ≠ 0 := by decide
  have htransport : (wideTicket letters).transport = "tcp" := rfl
  simp only [validateTicket, parseTicketEndpoint, wideTicket_endpoint hletters,
    bind, Except.bind, ensure, hplain, hmorphology, hidentity, hsigning, hport,
    htransport, true_or, ne_eq, not_false_eq_true, if_true,
    Bool.false_eq_true]

/-- A ticket takes more bytes than its endpoint has characters. -/
theorem length_lt_jsonBytes (ticket : JoinTicket) :
    ticket.endpoint.toList.length < ticket.jsonBytes := by
  have hquote := length_le_quoteBytes ticket.endpoint
  rw [jsonBytes, membersOf_some, objectBytes, if_neg (List.cons_ne_nil _ _),
    List.map_cons, List.sum_cons, memberBytes]
  omega

theorem letters_lt_jsonBytes (letters : Nat) :
    letters < (wideTicket letters).jsonBytes := by
  have hnoColon : ':' ∉ (wideHost letters).toList := fun hcolon =>
    absurd (eq_of_mem_wideHost hcolon) (by decide)
  have hlength : letters ≤ (wideTicket letters).endpoint.toList.length := by
    rw [wideTicket, format_of_noColon hnoColon, List.length_append, wideHost,
      String.toList_ofList, List.length_replicate]
    omega
  exact hlength.trans_lt (length_lt_jsonBytes _)

/-- A ticket for a name of 6144 letters is handed out, and its text is never
read. -/
theorem wideTicket_not_decoded :
    ∃ text, (wideTicket 6144).encode = .ok text ∧
      ∀ readJson, readJson (wideTicket 6144).toVec =
          some (.object (wideTicket 6144).object) →
        decode readJson text ≠ .ok (wideTicket 6144) := by
  have hencode := encode_eq_ok_iff.mpr
    ⟨wideTicket_valid (show 6144 ≠ 0 by decide), rfl⟩
  refine ⟨_, hencode, fun readJson hreads => ?_⟩
  rw [decode_encoded hreads hencode,
    if_neg (letters_lt_jsonBytes 6144).not_ge]
  nofun

end RoundTrip

end JoinTicket

end Shph
