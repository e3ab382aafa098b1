/-
Reading the text of a configuration.  A session that still names the version
of its shroud is brought to the present settings first; a join ticket of the
same version goes through a table of its own.
-/
import Shph.ConfigDocument
import Shph.Ticket

namespace Shph.Configuration

open ByteCodec Checked ControlPlane JsonTree OrderedTable TomlTree

/-- The TOML library: it writes a configuration, reads a text, and says why a
document is not a configuration. -/
structure TomlCodec where
  write : Config → Except String String
  read : String → Except String Toml
  mismatch : Toml → String

section Migration

/-- The older profile of the document, in lower case. -/
def legacyProfile (document : Toml) : String :=
  toAsciiLowercase ((((document.get "stealth").bind
    (Toml.get "shroud_profile")).bind Toml.asString).getD "medium")

/-- The tier an older profile is brought to. -/
def legacyTierName (legacyProfile : String) : String :=
  match legacyProfile with
  | "low-latency" => "low"
  | "balanced" => "medium"
  | "bulk" => "high"
  | "tuned" | "optimized" | "optimized-medium" => "tuned-medium"
  | "optimized-low" => "tuned-low"
  | "optimized-high" => "tuned-high"
  | "low" | "medium" | "high" | "tuned-low" | "tuned-medium" |
    "tuned-high" => legacyProfile
  | _ => "medium"

def legacyVersion (oldValue : Toml) : Except ConfigError Bool :=
  match oldValue.asString with
  | some "2.0" => .ok false
  | some "2.1" => .ok true
  | some _ =>
      .error (.parse "session.shroud_version must be 2.0 or 2.1")
  | none => .error (.parse
      "session.shroud_version must be the string 2.0 or 2.1")

/-- Set `phantom_one`, or check it against the version. -/
def migratePhantomOne (migrated : Bool) (session : List (String × Toml)) :
    Except ConfigError (List (String × Toml)) :=
  match (session.lookup "phantom_one").bind Toml.asBool with
  | some configured => do
      require (configured = migrated) (.parse
        "session.shroud_version conflicts with session.phantom_one")
      return session
  | none => .ok (insert "phantom_one" (.boolean migrated) session)

def migrateSession (legacyProfile : String)
    (session : List (String × Toml)) :
    Except ConfigError (List (String × Toml)) :=
  match session.lookup "shroud_version" with
  | none => .ok session
  | some oldValue => do
      let session := erase "shroud_version" session
      let migrated ← legacyVersion oldValue
      let session ← migratePhantomOne migrated session
      if migrated ∧ session.lookup "phantom_one_profile" = none then
        return insert "phantom_one_profile"
          (.string (legacyTierName legacyProfile)) session
      else return session

def migrate (document : Toml) : Except ConfigError Toml :=
  match document with
  | .table members =>
      match (members.lookup "session").bind Toml.asTable with
      | some session => do
          let session ← migrateSession (legacyProfile document) session
          return .table (insert "session" (.table session) members)
      | none => .ok document
  | _ => .ok document

def parsed {A : Type} : Except String A → Except ConfigError A
  | .ok value => .ok value
  | .error message => .error (.parse message)

def Config.parse (codec : TomlCodec) (parseIp : String → Option IpAddr)
    (contents : String) : Except ConfigError Config := do
  let document ← parsed (codec.read contents)
  let document ← migrate document
  let config ← valueOr (Config.ofDocument document)
    (.parse (codec.mismatch document))
  config.validate parseIp
  return config

end Migration

section Tiers

/-- The tier the program selects for the session of a configuration. -/
def Config.tier (config : Config) : Option ProfileTier :=
  config.session.bind fun session =>
    if session.phantomOne then
      (parsePhantomOneProfile session.phantomOneProfile).toOption
    else none

end Tiers

/-- A document with the older version and this older profile, and without a
tier of its own. -/
structure LegacyDocument (document : Toml) (profile : String) : Prop where
  version : (document.get "session").bind (Toml.get "shroud_version") =
    some (.string "2.1")
  noTier : (document.get "session").bind (Toml.get "phantom_one_profile") =
    none
  profile : (document.get "stealth").bind (Toml.get "shroud_profile") =
    some (.string profile)

section Document

variable {document migrated : Toml} {profile : String} {config : Config}
  {session : List (String × Toml)} {result : List (String × Toml)}

theorem toOption_parsePhantomOneProfile (value : String) :
    (parsePhantomOneProfile value).toOption = tierByName value := by
  rw [parsePhantomOneProfile]
  cases tierByName value <;> rfl

theorem migratePhantomOne_eq_ok
    (hmigrate : migratePhantomOne true session = .ok result) :
    (result.lookup "phantom_one").bind Toml.asBool = some true ∧
      ∀ name, name ≠ "phantom_one" →
        result.lookup name = session.lookup name := by
  rw [migratePhantomOne] at hmigrate
  split at hmigrate
  · rename_i configured hconfigured
    rw [then_eq_ok, require_eq_ok_iff] at hmigrate
    obtain ⟨rfl, hresult⟩ := hmigrate
    cases hresult
    exact ⟨hconfigured, fun _ _ => rfl⟩
  · cases hmigrate
    refine ⟨?_, fun name hname => ?_⟩
    · rw [lookup_insert, if_pos rfl]
      rfl
    · rw [lookup_insert, if_neg hname]

/-- What migration makes of a session of the newer of the two versions. -/
theorem migrateSession_eq_ok
    (hversion : session.lookup "shroud_version" = some (.string "2.1"))
    (hnone : session.lookup "phantom_one_profile" = none)
    (hmigrate : migrateSession profile session = .ok result) :
    (result.lookup "phantom_one").bind Toml.asBool = some true ∧
      result.lookup "phantom_one_profile" =
        some (.string (legacyTierName profile)) := by
  have hread : legacyVersion (.string "2.1") = .ok true := rfl
  simp only [migrateSession, hversion, hread] at hmigrate
  rw [bind_eq_ok] at hmigrate
  obtain ⟨version, hsame, hmigrate⟩ := hmigrate
  cases hsame
  rw [bind_eq_ok] at hmigrate
  obtain ⟨between, hbetween, hmigrate⟩ := hmigrate
  obtain ⟨hphantom, hothers⟩ := migratePhantomOne_eq_ok hbetween
  have hfree : between.lookup "phantom_one_profile" = none := by
    rw [hothers _ (by decide), lookup_erase, if_neg (by decide), hnone]
  rw [if_pos ⟨rfl, hfree⟩] at hmigrate
  cases hmigrate
  refine ⟨?_, ?_⟩
  · rw [lookup_insert, if_neg (by decide), hphantom]
  · rw [lookup_insert, if_pos rfl]

/-- A legacy document is migrated in its session alone. -/
theorem migrate_legacy (hlegacy : LegacyDocument document profile)
    (hmigrate : migrate document = .ok migrated) :
    ∃ members result, migrated = .table members ∧
      members.lookup "session" = some (.table result) ∧
      members.lookup "stealth" = document.get "stealth" ∧
      (result.lookup "phantom_one").bind Toml.asBool = some true ∧
      result.lookup "phantom_one_profile" =
        some (.string (legacyTierName (toAsciiLowercase profile))) := by
  obtain ⟨value, hvalue, hversion⟩ :=
    Option.bind_eq_some_iff.mp hlegacy.version
  obtain ⟨session, hsession, hversion⟩ := Option.bind_eq_some_iff.mp hversion
  rw [Toml.asTable_eq_some_iff] at hsession
  subst hsession
  obtain ⟨members, hmembers, hlookup⟩ := Option.bind_eq_some_iff.mp hvalue
  rw [Toml.asTable_eq_some_iff] at hmembers
  subst hmembers
  have hnone : session.lookup "phantom_one_profile" = none := by
    have hnone := hlegacy.noTier
    rw [hvalue] at hnone
    exact hnone
  have hprofile : legacyProfile (.table members) =
      toAsciiLowercase profile := by
    rw [legacyProfile, hlegacy.profile]
    rfl
  simp only [migrate, hlookup, Option.bind_some, Toml.asTable, hprofile]
    at hmigrate
  rw [bind_eq_ok] at hmigrate
  obtain ⟨result, hresult, hmigrate⟩ := hmigrate
  cases hmigrate
  refine ⟨_, result, rfl, ?_, ?_, migrateSession_eq_ok hversion hnone hresult⟩
  · rw [lookup_insert, if_pos rfl]
  · rw [lookup_insert, if_neg (by decide)]
    rfl

theorem get_of_strictStructOf {names : List String}
    {members : List (String × Toml)} {fields : Fields}
    (hfields : strictStructOf names (.table members) = some fields)
    (name : String) : fields.get name = members.lookup name := by
  rw [strictStructOf] at hfields
  split at hfields
  · rw [← Option.some.inj hfields]
  · cases hfields

theorem readSession_eq_some {result : List (String × Toml)}
    {session : SessionConfig} {name : String}
    (hread : readSession (.table result) = some session)
    (hphantom : (result.lookup "phantom_one").bind Toml.asBool = some true)
    (htier : result.lookup "phantom_one_profile" = some (.string name)) :
    session.phantomOne = true ∧ session.phantomOneProfile = name := by
  obtain ⟨fields, hfields, hread⟩ := Option.bind_eq_some_iff.mp hread
  iterate 10 obtain ⟨_, -, hread⟩ := Option.bind_eq_some_iff.mp hread
  obtain ⟨_, hone, hread⟩ := Option.bind_eq_some_iff.mp hread
  iterate 2 obtain ⟨_, -, hread⟩ := Option.bind_eq_some_iff.mp hread
  obtain ⟨_, hprofile, hread⟩ := Option.bind_eq_some_iff.mp hread
  iterate 2 obtain ⟨_, -, hread⟩ := Option.bind_eq_some_iff.mp hread
  cases hread
  rw [Fields.defaulted, get_of_strictStructOf hfields] at hone hprofile
  constructor
  · obtain ⟨value, hvalue, hbool⟩ := Option.bind_eq_some_iff.mp hphantom
    rw [hvalue] at hone
    exact Option.some.inj (hone.symm.trans hbool)
  · rw [htier] at hprofile
    exact (Option.some.inj hprofile).symm

theorem readStealth_eq_some {value : Toml} {stealth : StealthConfig}
    (hread : readStealth value = some stealth)
    (hprofile : value.get "shroud_profile" = some (.string profile)) :
    stealth.shroudProfile = profile := by
  obtain ⟨members, hmembers, hlookup⟩ := Option.bind_eq_some_iff.mp hprofile
  rw [Toml.asTable_eq_some_iff] at hmembers
  subst hmembers
  obtain ⟨fields, hfields, hread⟩ := Option.bind_eq_some_iff.mp hread
  obtain ⟨_, -, hread⟩ := Option.bind_eq_some_iff.mp hread
  obtain ⟨_, hshroud, hread⟩ := Option.bind_eq_some_iff.mp hread
  cases hread
  rw [Fields.required, get_of_strictStructOf hfields, hlookup] at hshroud
  exact (Option.some.inj hshroud).symm

theorem optional_eq_some {A : Type} {fields : Fields} {value : Toml}
    {read : Toml → Option A} {name : String} {result : Option A}
    (hget : fields.get name = some value)
    (hoptional : fields.optional read name = some result) :
    ∃ inner, result = some inner ∧ read value = some inner := by
  rw [Fields.optional, hget] at hoptional
  obtain ⟨inner, hread, rfl⟩ := Option.map_eq_some_iff.mp hoptional
  exact ⟨inner, rfl, hread⟩

/-- What is read for the sections of a legacy document. -/
theorem ofDocument_legacy {members result : List (String × Toml)}
    {stealthValue : Toml} {name : String}
    (hread : Config.ofDocument (.table members) = some config)
    (hsession : members.lookup "session" = some (.table result))
    (hstealth : members.lookup "stealth" = some stealthValue)
    (hprofile : stealthValue.get "shroud_profile" = some (.string profile))
    (hphantom : (result.lookup "phantom_one").bind Toml.asBool = some true)
    (htier : result.lookup "phantom_one_profile" = some (.string name)) :
    (∃ session, config.session = some session ∧ session.phantomOne = true ∧
      session.phantomOneProfile = name) ∧
    ∃ stealth, config.stealth = some stealth ∧
      stealth.shroudProfile = profile := by
  obtain ⟨fields, hfields, hread⟩ := Option.bind_eq_some_iff.mp hread
  iterate 4 obtain ⟨_, -, hread⟩ := Option.bind_eq_some_iff.mp hread
  obtain ⟨_, hstealthRead, hread⟩ := Option.bind_eq_some_iff.mp hread
  iterate 2 obtain ⟨_, -, hread⟩ := Option.bind_eq_some_iff.mp hread
  obtain ⟨_, hsessionRead, hread⟩ := Option.bind_eq_some_iff.mp hread
  cases hread
  obtain ⟨stealth, rfl, hstealthOf⟩ := optional_eq_some
    ((get_of_strictStructOf hfields _).trans hstealth) hstealthRead
  obtain ⟨session, rfl, hsessionOf⟩ := optional_eq_some
    ((get_of_strictStructOf hfields _).trans hsession) hsessionRead
  exact ⟨⟨session, rfl, readSession_eq_some hsessionOf hphantom htier⟩,
    stealth, rfl, readStealth_eq_some hstealthOf hprofile⟩

variable {codec : TomlCodec} {parseIp : String → Option IpAddr}
  {contents : String}

theorem parse_eq_ok
    (hparse : Config.parse codec parseIp contents = .ok config) :
    ∃ document migrated, codec.read contents = .ok document ∧
      migrate document = .ok migrated ∧
      Config.ofDocument migrated = some config ∧
      config.validate parseIp = .ok () := by
  rw [Config.parse, bind_eq_ok] at hparse
  obtain ⟨document, hread, hparse⟩ := hparse
  rw [bind_eq_ok] at hparse
  obtain ⟨migrated, hmigrate, hparse⟩ := hparse
  rw [bind_eq_ok] at hparse
  obtain ⟨_, hof, hparse⟩ := hparse
  rw [then_eq_ok] at hparse
  obtain ⟨hvalid, hparse⟩ := hparse
  cases hparse
  refine ⟨document, migrated, ?_, hmigrate, valueOr_eq_ok_iff.mp hof, hvalid⟩
  cases hcontents : codec.read contents with
  | error message =>
      rw [hcontents] at hread
      cases hread
  | ok value =>
      rw [hcontents] at hread
      exact congrArg _ (Except.ok.inj hread)

/-- A valid configuration has a profile without white space. -/
theorem stealth_unbroken {stealth : StealthConfig}
    (hvalid : config.validate parseIp = .ok ())
    (hstealth : config.stealth = some stealth) :
    asciiUnbroken stealth.shroudProfile = true ∧
      isAscii stealth.shroudProfile = true := by
  simp only [Config.validate, then_eq_ok, hstealth, ifSome, validateStealth,
    validateText, require_eq_ok_iff, not_or, Bool.not_eq_false] at hvalid
  exact ⟨hvalid.2.2.2.2.2.1.2.2.2.2, hvalid.2.2.2.2.2.1.2.2.2.1⟩

end Document

section Tables

theorem trim_of_unbroken {text : String} (hascii : isAscii text = true)
    (hunbroken : asciiUnbroken text = true) : trim text = text := by
  apply trim_eq_self
  intro char hchar
  have hcode := List.all_eq_true.mp hascii char hchar
  rw [asciiUnbroken, Bool.not_eq_true', List.any_eq_false] at hunbroken
  have hplain := hunbroken char hchar
  simp only [isAsciiControl, isAsciiWhitespace, Bool.or_eq_true,
    decide_eq_true_eq, beq_iff_eq, not_or, not_lt] at hplain hcode
  have hspace : char.toNat ≠ 32 := fun hspace =>
    hplain.2.1.1.1.1 (Char.toNat_inj.mp hspace)
  simp only [isWhitespace, Bool.or_eq_false_iff, Bool.and_eq_false_iff,
    decide_eq_false_iff_not, beq_eq_false_iff_ne]
  omega

/-- The names either of the two tables knows. -/
def knownProfiles : List String :=
  ["off", "none", "disabled", "low", "low-latency", "medium", "balanced",
    "high", "bulk", "extreme", "extreme-lab", "randomized-lab", "tuned",
    "optimized", "tuned-medium", "optimized-medium", "tuned-low",
    "optimized-low", "tuned-high", "optimized-high"]

theorem known_tiers : ∀ name ∈ knownProfiles,
    ∃ tier ∈ [ProfileTier.low, .medium, .high, .tunedLow, .tunedMedium,
      .tunedHigh], tierByName (legacyTierName name) = some tier ∧
      (tier = (((selectShroud name).getD none).map
          ProfileTier.fromShroudProfile).getD .medium ↔
        name ≠ "extreme" ∧ name ≠ "extreme-lab") := by
  decide +kernel

theorem unknown_tier {name : String} (hname : name ∉ knownProfiles) :
    legacyTierName name = "medium" ∧ selectShroud name = none := by
  constructor
  · unfold legacyTierName
    split
    all_goals first | rfl | exact absurd (by decide) hname
  · unfold selectShroud
    split
    all_goals first | rfl | exact absurd (by decide) hname

theorem legacyTiers (profile : String) :
    ∃ tier, tierByName (legacyTierName (toAsciiLowercase (trim profile))) =
        some tier ∧
      (tier = JoinTicket.legacyTier profile ↔
        toAsciiLowercase (trim profile) ≠ "extreme" ∧
          toAsciiLowercase (trim profile) ≠ "extreme-lab") := by
  rw [JoinTicket.legacyTier, shroudProfileBySelection]
  generalize toAsciiLowercase (trim profile) = name
  by_cases hname : name ∈ knownProfiles
  · obtain ⟨tier, -, htier, hagree⟩ := known_tiers name hname
    exact ⟨tier, htier, hagree⟩
  · obtain ⟨htier, hselect⟩ := unknown_tier hname
    have hmedium : tierByName "medium" = some .medium := by decide +kernel
    refine ⟨.medium, by rw [htier, hmedium], iff_of_true ?_ ⟨?_, ?_⟩⟩
    · rw [hselect]
      rfl
    · rintro rfl
      exact hname (by decide)
    · rintro rfl
      exact hname (by decide)

end Tables

section Tickets

open JoinTicket (migrateLegacyTicket)

variable {object result : List (String × Json)} {profile : String}
  {ticket : JoinTicket} {readJson : Bytes → Option Json} {text : String}

/-- The tree a ticket is read from. -/
def ticketPayload (readJson : Bytes → Option Json) (text : String) :
    Option Json :=
  ((stripFront ticketPrefix (trim text)).bind fun encoded =>
    Base64.decodeUrlDigits encoded.toList).bind readJson

/-- A tree with the older version and this older profile, and without a tier
of its own. -/
structure LegacyObject (object : List (String × Json)) (profile : String) :
    Prop where
  version : object.lookup "shroud_version" = some (.string "2.1")
  noTier : object.lookup "phantom_one_profile" = none
  profile : object.lookup "shroud_profile" = some (.string profile)

theorem ticketMigratePhantomOne_eq_ok
    (hmigrate : JoinTicket.migratePhantomOne true object = .ok result) :
    (result.lookup "phantom_one").bind SnapPath.readBool = some true ∧
      ∀ name, name ≠ "phantom_one" →
        result.lookup name = object.lookup name := by
  rw [JoinTicket.migratePhantomOne] at hmigrate
  split at hmigrate
  · rename_i configured hconfigured
    rw [then_eq_ok, ensure_eq_ok_iff] at hmigrate
    obtain ⟨rfl, hresult⟩ := hmigrate
    cases hresult
    exact ⟨hconfigured, fun _ _ => rfl⟩
  · cases hmigrate
    refine ⟨?_, fun name hname => ?_⟩
    · rw [lookup_insert, if_pos rfl]
      rfl
    · rw [lookup_insert, if_neg hname]

theorem migrateObject_legacy (hlegacy : LegacyObject object profile)
    (hmigrate : JoinTicket.migrateObject object = .ok result) :
    (result.lookup "phantom_one").bind SnapPath.readBool = some true ∧
      result.lookup "phantom_one_profile" =
        some (.string (JoinTicket.legacyTier profile).asStr) := by
  have hread : JoinTicket.legacyVersion (.string "2.1") = .ok true := rfl
  simp only [JoinTicket.migrateObject, hlegacy.version, hread] at hmigrate
  rw [bind_eq_ok] at hmigrate
  obtain ⟨version, hsame, hmigrate⟩ := hmigrate
  cases hsame
  rw [bind_eq_ok] at hmigrate
  obtain ⟨between, hbetween, hmigrate⟩ := hmigrate
  obtain ⟨hphantom, hothers⟩ := ticketMigratePhantomOne_eq_ok hbetween
  have hfree : between.lookup "phantom_one_profile" = none := by
    rw [hothers _ (by decide), lookup_erase, if_neg (by decide),
      hlegacy.noTier]
  have hshroud : between.lookup "shroud_profile" =
      some (.string profile) := by
    rw [hothers _ (by decide), lookup_erase, if_neg (by decide),
      hlegacy.profile]
  rw [if_pos ⟨rfl, hfree⟩] at hmigrate
  cases hmigrate
  refine ⟨?_, ?_⟩
  · rw [JoinTicket.migrateProfile, lookup_erase, if_neg (by decide),
      lookup_insert, if_neg (by decide), hphantom]
  · rw [JoinTicket.migrateProfile, lookup_erase, if_neg (by decide),
      lookup_insert, if_pos rfl, hshroud]
    rfl

theorem fromValue_legacy {name : String}
    (hread : JoinTicket.fromValue (.object result) = some ticket)
    (hphantom : (result.lookup "phantom_one").bind SnapPath.readBool =
      some true)
    (htier : result.lookup "phantom_one_profile" = some (.string name)) :
    ticket.phantomOne = true ∧ ticket.phantomOneProfile = some name := by
  obtain ⟨field, hfield, hread⟩ := Option.bind_eq_some_iff.mp hread
  rw [SnapPath.eq_lookup_of_structOf hfield] at hread
  iterate 3 obtain ⟨_, -, hread⟩ := Option.bind_eq_some_iff.mp hread
  obtain ⟨_, hone, hread⟩ := Option.bind_eq_some_iff.mp hread
  obtain ⟨_, hprofile, hread⟩ := Option.bind_eq_some_iff.mp hread
  iterate 2 obtain ⟨_, -, hread⟩ := Option.bind_eq_some_iff.mp hread
  cases hread
  dsimp only at hone hprofile
  rw [htier] at hprofile
  obtain ⟨value, hvalue, hbool⟩ := Option.bind_eq_some_iff.mp hphantom
  rw [hvalue] at hone
  exact ⟨Option.some.inj (hone.symm.trans hbool),
    (Option.some.inj hprofile).symm⟩

theorem tierByName_asStr (tier : ProfileTier) :
    tierByName tier.asStr = some tier := by
  cases tier <;> decide +kernel

/-- The tier of a ticket that was migrated. -/
theorem tier_of_decode (hlegacy : LegacyObject object profile)
    (hpayload : ticketPayload readJson text = some (.object object))
    (hdecode : JoinTicket.decode readJson text = .ok ticket) :
    ticket.tier = some (JoinTicket.legacyTier profile) := by
  rw [JoinTicket.decode, bind_eq_ok] at hdecode
  obtain ⟨encoded, hencoded, hdecode⟩ := hdecode
  rw [then_eq_ok, bind_eq_ok] at hdecode
  obtain ⟨-, payload, hbytes, hdecode⟩ := hdecode
  rw [then_eq_ok, bind_eq_ok] at hdecode
  obtain ⟨-, value, hvalue, hdecode⟩ := hdecode
  rw [bind_eq_ok] at hdecode
  obtain ⟨migrated, hmigrate, hdecode⟩ := hdecode
  rw [bind_eq_ok] at hdecode
  obtain ⟨other, hof, hdecode⟩ := hdecode
  rw [then_eq_ok] at hdecode
  obtain ⟨-, hdecode⟩ := hdecode
  cases hdecode
  rw [okOr_eq_ok_iff] at hencoded hbytes hvalue hof
  rw [ticketPayload, hencoded, Option.bind_some, hbytes, Option.bind_some,
    hvalue, Option.some.injEq] at hpayload
  subst hpayload
  rw [migrateLegacyTicket, bind_eq_ok] at hmigrate
  obtain ⟨result, hresult, hmigrate⟩ := hmigrate
  cases hmigrate
  obtain ⟨hphantom, htier⟩ := migrateObject_legacy hlegacy hresult
  obtain ⟨hone, hprofile⟩ := fromValue_legacy hof hphantom htier
  rw [JoinTicket.tier, if_pos hone, hprofile, Option.bind_some,
    toOption_parsePhantomOneProfile, tierByName_asStr]

end Tickets

section Agreement

variable {codec : TomlCodec} {parseIp : String → Option IpAddr}
  {readJson : Bytes → Option Json} {contents text profile : String}
  {document : Toml} {object : List (String × Json)} {config : Config}
  {ticket : JoinTicket}

/-- The tier of a configuration that was migrated. -/
theorem tier_of_parse (hlegacy : LegacyDocument document profile)
    (hread : codec.read contents = .ok document)
    (hparse : Config.parse codec parseIp contents = .ok config) :
    config.tier = tierByName (legacyTierName (toAsciiLowercase profile)) ∧
      trim profile = profile := by
  obtain ⟨other, migrated, hother, hmigrate, hof, hvalid⟩ :=
    parse_eq_ok hparse
  obtain rfl := Except.ok.inj (hread.symm.trans hother)
  obtain ⟨members, result, rfl, hsession, hstealth, hphantom, htier⟩ :=
    migrate_legacy hlegacy hmigrate
  obtain ⟨stealthValue, hvalue, hprofile⟩ :=
    Option.bind_eq_some_iff.mp hlegacy.profile
  obtain ⟨⟨session, hconfig, hone, hname⟩, stealth, hstealthConfig, hshroud⟩ :=
    ofDocument_legacy hof hsession (hstealth.trans hvalue) hprofile hphantom
      htier
  obtain ⟨hunbroken, hascii⟩ := stealth_unbroken hvalid hstealthConfig
  rw [hshroud] at hunbroken hascii
  refine ⟨?_, trim_of_unbroken hascii hunbroken⟩
  rw [Config.tier, hconfig, Option.bind_some, if_pos hone, hname,
    toOption_parsePhantomOneProfile]

/-- A profile is brought to one tier by both ways just when it is not the
extreme one. -/
theorem migrations_agree_iff (hdocument : LegacyDocument document profile)
    (hread : codec.read contents = .ok document)
    (hparse : Config.parse codec parseIp contents = .ok config)
    (hobject : LegacyObject object profile)
    (hpayload : ticketPayload readJson text = some (.object object))
    (hdecode : JoinTicket.decode readJson text = .ok ticket) :
    ∃ configTier ticketTier, config.tier = some configTier ∧
      ticket.tier = some ticketTier ∧
      (configTier = ticketTier ↔ toAsciiLowercase profile ≠ "extreme" ∧
        toAsciiLowercase profile ≠ "extreme-lab") := by
  obtain ⟨hconfig, htrim⟩ := tier_of_parse hdocument hread hparse
  obtain ⟨tier, htier, hagree⟩ := legacyTiers profile
  rw [htrim] at htier hagree
  exact ⟨tier, _, hconfig.trans htier,
    tier_of_decode hobject hpayload hdecode, hagree⟩

end Agreement

section Samples

/-- A document of the older form. -/
def legacyDocument (profile : String) : Toml :=
  .table [("interface_name", .string "shph0"),
    ("local_endpoint", .string "0.0.0.0:51820"), ("peers", .array []),
    ("session", .table [("peer", .string "127.0.0.1:7000"),
      ("role", .string "connect"), ("shroud_version", .string "2.1")]),
    ("stealth", .table [("profile", .string "steady"),
      ("shroud_profile", .string profile)])]

def legacyText (profile : String) : String :=
  "interface_name = \"shph0\"\nlocal_endpoint = \"0.0.0.0:51820\"\n" ++
    "peers = []\n\n[stealth]\nprofile = \"steady\"\nshroud_profile = \"" ++
    profile ++ "\"\n\n[session]\nrole = \"connect\"\n" ++
    "peer = \"127.0.0.1:7000\"\nshroud_version = \"2.1\"\n"

/-- A reader for this one text. -/
def legacyCodec (profile : String) : TomlCodec where
  write _ := .error "unsupported"
  read text :=
    if text = legacyText profile then .ok (legacyDocument profile)
    else .error "expected a table"
  mismatch _ := "missing field"

def legacyObject (profile : String) : List (String × Json) :=
  [("endpoint", .string "198.51.100.10:443"),
    ("server_identity_b64",
      .string "AAAAAAAAAAAAAAAAAAAAAAAAAAAAAAAAAAAAAAAAAAA="),
    ("server_signing_b64",
      .string "AQEBAQEBAQEBAQEBAQEBAQEBAQEBAQEBAQEBAQEBAQE="),
    ("shroud_profile", .string profile), ("shroud_version", .string "2.1"),
    ("transport", .string "tcp")]

def legacyPayload (profile : String) : Bytes :=
  textBytes ("\x7b\"endpoint\":\"198.51.100.10:443\",\"transport\":\"tcp\"," ++
    "\"shroud_profile\":\"" ++ profile ++ "\",\"server_identity_b64\":" ++
    "\"AAAAAAAAAAAAAAAAAAAAAAAAAAAAAAAAAAAAAAAAAAA=\"," ++
    "\"server_signing_b64\":" ++
    "\"AQEBAQEBAQEBAQEBAQEBAQEBAQEBAQEBAQEBAQEBAQE=\"," ++
    "\"shroud_version\":\"2.1\"\x7d")

def legacyReader (profile : String) (payload : Bytes) : Option Json :=
  if payload = legacyPayload profile then some (.object (legacyObject profile))
  else none

def legacyTicket (profile : String) : String :=
  ticketPrefix ++
    String.ofList (Base64.encodeUrlDigits (legacyPayload profile))

theorem legacyDocument_legacy (profile : String) :
    LegacyDocument (legacyDocument profile) profile :=
  ⟨rfl, rfl, rfl⟩

theorem legacyObject_legacy (profile : String) :
    LegacyObject (legacyObject profile) profile :=
  ⟨rfl, rfl, rfl⟩

theorem legacyCodec_read (profile : String) :
    (legacyCodec profile).read (legacyText profile) =
      .ok (legacyDocument profile) :=
  if_pos rfl

theorem ticketPayload_legacy (profile : String) :
    ticketPayload (legacyReader profile) (legacyTicket profile) =
      some (.object (legacyObject profile)) := by
  have hread : legacyReader profile (legacyPayload profile) =
      some (.object (legacyObject profile)) := if_pos rfl
  rw [ticketPayload, legacyTicket, JoinTicket.trim_encoded,
    TcpUnderlay.stripFront_append, Option.bind_some, String.toList_ofList,
    Base64.decodeUrlDigits_encodeUrlDigits, Option.bind_some, hread]

/-- The sample document is accepted when what it is migrated to is. -/
theorem parse_legacy {profile : String} {config : Config}
    {parseIp : String → Option IpAddr}
    (hof : (migrate (legacyDocument profile)).toOption.bind
      Config.ofDocument = some config)
    (hvalid : config.validate parseIp = .ok ()) :
    Config.parse (legacyCodec profile) parseIp (legacyText profile) =
      .ok config := by
  obtain ⟨document, hdocument, hof⟩ := Option.bind_eq_some_iff.mp hof
  cases hmigrate : migrate (legacyDocument profile) with
  | error error =>
      rw [hmigrate] at hdocument
      cases hdocument
  | ok migrated =>
      rw [hmigrate] at hdocument
      obtain rfl := Option.some.inj hdocument
      simp only [Config.parse, legacyCodec_read, parsed, hmigrate, hof,
        valueOr, hvalid, bind, Except.bind, pure, Except.pure]

theorem decode_legacy {profile : String} {ticket : JoinTicket}
    (hof : (JoinTicket.migrateLegacyTicket
      (.object (legacyObject profile))).toOption.bind JoinTicket.fromValue =
        some ticket)
    (hsize : (legacyPayload profile).length ∈ Set.Icc 1 6144)
    (hvalid : validateTicket ticket = .ok ()) :
    JoinTicket.decode (legacyReader profile) (legacyTicket profile) =
      .ok ticket := by
  obtain ⟨value, hvalue, hof⟩ := Option.bind_eq_some_iff.mp hof
  have hread : legacyReader profile (legacyPayload profile) =
      some (.object (legacyObject profile)) := if_pos rfl
  have hbytes := JoinTicket.digits_utf8ByteSize (legacyPayload profile)
  have hcap : ¬ (String.ofList (Base64.encodeUrlDigits
      (legacyPayload profile)) = "" ∨ maxTicketBytes < (String.ofList
        (Base64.encodeUrlDigits (legacyPayload profile))).utf8ByteSize) := by
    rw [← String.utf8ByteSize_eq_zero_iff, hbytes, maxTicketBytes]
    obtain ⟨hlow, hhigh⟩ := hsize
    omega
  have hpayload : (legacyPayload profile).length ≤ maxTicketBytes :=
    hsize.2.trans (by decide)
  cases hmigrate : JoinTicket.migrateLegacyTicket
      (.object (legacyObject profile)) with
  | error error =>
      rw [hmigrate] at hvalue
      cases hvalue
  | ok migrated =>
      rw [hmigrate] at hvalue
      obtain rfl := Option.some.inj hvalue
      simp only [JoinTicket.decode, legacyTicket, JoinTicket.trim_encoded,
        TcpUnderlay.stripFront_append, okOr, ensure, if_pos hcap,
        String.toList_ofList, Base64.decodeUrlDigits_encodeUrlDigits,
        if_pos hpayload, hread, hmigrate, hof, hvalid, bind, Except.bind,
        pure, Except.pure]

/-- What the sample document is migrated to. -/
def migratedConfig (profile tier : String) : Config where
  interfaceName := "shph0"
  localEndpoint := "0.0.0.0:51820"
  peers := []
  obfuscation := none
  stealth := some ⟨"steady", profile⟩
  roadmap := none
  controlPlane := none
  session := some
    { role := .connect, bind := none, peer := some "127.0.0.1:7000"
      transportPeer := none, snapProfile := none, timeoutSecs := none
      handshakeProfile := none, underlay := none, quicCert := none
      quicKey := none, phantomOne := true, shroud3Adaptive := false
      negotiateEnvelopePolicy := false, phantomOneProfile := tier
      reconnect := none, startupPayload := none }

def migratedTicket (tier : String) : JoinTicket :=
  { JoinTicket.sample with
    shroudProfile := none, phantomOne := true, phantomOneProfile := some tier }

/-- Two peers with the same older profile end up with different tiers. -/
theorem extreme_tiers_differ :
    Config.parse (legacyCodec "extreme-lab") (fun _ => none)
        (legacyText "extreme-lab") =
      .ok (migratedConfig "extreme-lab" "medium") ∧
    JoinTicket.decode (legacyReader "extreme-lab")
        (legacyTicket "extreme-lab") = .ok (migratedTicket "high") ∧
    LegacyDocument (legacyDocument "extreme-lab") "extreme-lab" ∧
    LegacyObject (legacyObject "extreme-lab") "extreme-lab" ∧
    (migratedConfig "extreme-lab" "medium").tier = some .medium ∧
    (migratedTicket "high").tier = some .high :=
  ⟨parse_legacy (by decide +kernel) (by decide +kernel),
    decode_legacy (by decide +kernel) (by decide +kernel) (by decide +kernel),
    legacyDocument_legacy _, legacyObject_legacy _, by decide +kernel,
    by decide +kernel⟩

/-- The bulk profile is brought to one tier by both. -/
theorem bulk_tiers_agree :
    ∃ configTier ticketTier,
      (migratedConfig "bulk" "high").tier = some configTier ∧
      (migratedTicket "high").tier = some ticketTier ∧
      (configTier = ticketTier ↔
        toAsciiLowercase "bulk" ≠ "extreme" ∧
          toAsciiLowercase "bulk" ≠ "extreme-lab") := by
  have hparse : Config.parse (legacyCodec "bulk") (fun _ => none)
      (legacyText "bulk") = .ok (migratedConfig "bulk" "high") :=
    parse_legacy (by decide +kernel) (by decide +kernel)
  have hdecode : JoinTicket.decode (legacyReader "bulk")
      (legacyTicket "bulk") = .ok (migratedTicket "high") :=
    decode_legacy (by decide +kernel) (by decide +kernel) (by decide +kernel)
  exact migrations_agree_iff (legacyDocument_legacy "bulk")
    (legacyCodec_read "bulk") hparse (legacyObject_legacy "bulk")
    (ticketPayload_legacy "bulk") hdecode

end Samples

end Shph.Configuration
