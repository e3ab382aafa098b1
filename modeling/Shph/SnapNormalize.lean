/-
How the document of a profile is normalised before it is read: texts are
trimmed, names come in small letters, lists lose what is repeated.  Doing it
once more changes nothing, but for what is said here.
-/
import Shph.SnapPlanning

namespace Shph.SnapPath

open ByteCodec Checked ControlPlane JsonTree OrderedTable

section Strings

def lowercase (text : String) : String :=
  String.ofList (text.toList.map Char.toLower)

def adapterDefaultTimeoutSec (adapter : String) : Option Binary64 :=
  if lowercase (trim adapter) ∈ ["bridge-ws", "shroud-tcp"] then some (.ofNat 12)
  else none

/-- A text without anything in it becomes null. -/
def trimString : Json → Json
  | .string text => if trim text = "" then .null else .string (trim text)
  | value => value

def lowercaseString : Json → Json
  | .string text => .string (lowercase (trim text))
  | value => value

/-- The address without white space and brackets around it, in the way the
standard library writes it. -/
def canonicalizeIp (text : AddressText) (value : String) : String :=
  let candidate := String.ofList
    (((trim value).toList.dropWhile (· = '[')).rdropWhile (· = ']'))
  match text.parseIp candidate with
  | some ip => text.showIp ip
  | none => candidate

def canonicalizeIpValue (text : AddressText) : Json → Json
  | .string value => .string (canonicalizeIp text value)
  | value => value

/-- A pin is trimmed with the other texts, then written in small letters. -/
def canonicalizePin (value : Json) : Json :=
  match trimString value with
  | .string pin => .string (lowercase pin)
  | value => value

/-- There is no white space among the characters that print. -/
theorem isWhitespace_printed {char : Char} (hfirst : 33 ≤ char.toNat)
    (hlast : char.toNat ≤ 126) : isWhitespace char = false := by
  rw [Bool.eq_false_iff, isWhitespace]
  simp only [ne_eq, Bool.or_eq_true, Bool.and_eq_true, decide_eq_true_eq,
    beq_iff_eq]
  omega

theorem isWhitespace_toLower (char : Char) :
    isWhitespace char.toLower = isWhitespace char := by
  by_cases hupper : char.isUpper
  · have hbounds : 65 ≤ char.toNat ∧ char.toNat ≤ 90 := by
      simpa [Char.isUpper, UInt32.le_iff_toNat_le] using hupper
    have hlower : char.toLower.toNat = char.toNat + 32 := by
      rw [Char.toLower_eq_of_isUpper hupper, Char.toNat_ofNat,
        if_pos (.inl (by omega))]
    rw [isWhitespace_printed (by omega) (by omega),
      isWhitespace_printed (by omega) (by omega)]
  · rw [Char.toLower_eq_of_not_isUpper hupper]

theorem trimmed_lowercase {text : String} (htrimmed : Trimmed text.toList) :
    Trimmed (lowercase text).toList := by
  rw [lowercase, String.toList_ofList]
  constructor
  · intro char hchar
    rw [List.head?_map, Option.mem_map] at hchar
    obtain ⟨old, hold, rfl⟩ := hchar
    rw [isWhitespace_toLower]
    exact htrimmed.1 old hold
  · intro char hchar
    rw [List.getLast?_map, Option.mem_map] at hchar
    obtain ⟨old, hold, rfl⟩ := hchar
    rw [isWhitespace_toLower]
    exact htrimmed.2 old hold

theorem lowercase_lowercase (text : String) :
    lowercase (lowercase text) = lowercase text := by
  rw [lowercase, lowercase, String.toList_ofList, List.map_map]
  congr 1
  exact List.map_congr_left fun char _ => Char.toLower_toLower_eq_toLower char

theorem lowercase_eq_empty_iff {text : String} :
    lowercase text = "" ↔ text = "" := by
  rw [lowercase, ← String.toList_inj, ← String.toList_inj,
    String.toList_ofList]
  exact List.map_eq_nil_iff

theorem trimString_trimString (value : Json) :
    trimString (trimString value) = trimString value := by
  cases value with
  | string text =>
      by_cases hempty : trim text = ""
      · simp only [trimString, if_pos hempty]
      · simp only [trimString, if_neg hempty, trim_trim]
  | _ => rfl

theorem lowercaseString_lowercaseString (value : Json) :
    lowercaseString (lowercaseString value) = lowercaseString value := by
  cases value with
  | string text =>
      simp only [lowercaseString]
      rw [trim_of_trimmed (trimmed_lowercase (trimmed_trim text)),
        lowercase_lowercase]
  | _ => rfl

theorem canonicalizePin_canonicalizePin (value : Json) :
    canonicalizePin (canonicalizePin value) = canonicalizePin value := by
  cases value with
  | string text =>
      by_cases hempty : trim text = ""
      · simp only [canonicalizePin, trimString, if_pos hempty]
      · have hlower : ¬ lowercase (trim text) = "" :=
          fun hlower => hempty (lowercase_eq_empty_iff.mp hlower)
        simp only [canonicalizePin, trimString, if_neg hempty]
        rw [trim_of_trimmed (trimmed_lowercase (trimmed_trim text)),
          if_neg hlower]
        exact congrArg Json.string (lowercase_lowercase _)
  | _ => rfl

/-- An address that was read is written without white space and brackets, and
from there it is read again. -/
structure PlainAddresses (text : AddressText) : Prop where
  readBack : ∀ {value ip}, text.parseIp value = some ip →
    text.parseIp (text.showIp ip) = some ip
  plain : ∀ {value ip}, text.parseIp value = some ip →
    ∀ char ∈ (text.showIp ip).toList,
      isWhitespace char = false ∧ char ≠ '[' ∧ char ≠ ']'

theorem canonicalizeIp_of_plain {text : AddressText} {value : String}
    (hplain : ∀ char ∈ value.toList,
      isWhitespace char = false ∧ char ≠ '[' ∧ char ≠ ']')
    {ip : IpAddr} (hparse : text.parseIp value = some ip) :
    canonicalizeIp text value = text.showIp ip := by
  have htrim : trim value = value :=
    trim_eq_self fun char hchar => (hplain char hchar).1
  have hfront : value.toList.dropWhile (· = '[') = value.toList := by
    apply List.dropWhile_eq_self_iff.mpr
    intro hpos hopen
    exact (hplain _ (List.getElem_mem hpos)).2.1 (of_decide_eq_true hopen)
  have hback : value.toList.rdropWhile (· = ']') = value.toList := by
    apply List.rdropWhile_eq_self_iff.mpr
    intro hne hclose
    exact (hplain _ (List.getLast_mem hne)).2.2 (of_decide_eq_true hclose)
  simp only [canonicalizeIp, htrim, hfront, hback, String.ofList_toList,
    hparse]

/-- Of an address that could not be read nothing is said. -/
theorem canonicalizeIp_canonicalizeIp {text : AddressText}
    (haddresses : PlainAddresses text) {value : String}
    (hvalid : (text.parseIp (canonicalizeIp text value)).isSome = true) :
    canonicalizeIp text (canonicalizeIp text value) =
      canonicalizeIp text value := by
  generalize hshown : canonicalizeIp text value = shown at hvalid ⊢
  rw [canonicalizeIp] at hshown
  split at hshown
  · rename_i ip hparse
    rw [← hshown]
    exact canonicalizeIp_of_plain (haddresses.plain hparse)
      (haddresses.readBack hparse)
  · rename_i hparse
    rw [← hshown, hparse] at hvalid
    cases hvalid

end Strings

section Lists

/-- Names in small letters, each at its first place; anything that is not a
name stays.  The names that were seen come along. -/
def distinctNames : List String → List Json → List Json × List String
  | seen, [] => ([], seen)
  | seen, item :: rest =>
      match lowercaseString item with
      | .string name =>
          if name ∈ seen then distinctNames seen rest
          else
            let others := distinctNames (name :: seen) rest
            (.string name :: others.1, others.2)
      | other =>
          let others := distinctNames seen rest
          (other :: others.1, others.2)

def isNullOrEmpty : Json → Bool
  | .null => true
  | .string text => text = ""
  | _ => false

/-- The names of an order, and behind them the adapters it does not name. -/
def normalizeOrder (items : List Json) : List Json :=
  let named := distinctNames [] items
  named.1 ++ (defaultAdapterOrder.filter fun adapter =>
    adapter ∉ named.2).map .string

def normalizeFallback (value : Json) : Json :=
  if isNullOrEmpty value then .array []
  else
    match value with
    | .array items => .array (distinctNames [] items).1
    | value => value

/-- Names in small letters, each once and none of those seen. -/
structure DistinctNames (seen : List String) (items : List Json) : Prop where
  lower : ∀ item ∈ items, lowercaseString item = item
  nodup : (items.filterMap Json.asString).Nodup
  fresh : ∀ name ∈ items.filterMap Json.asString, name ∉ seen

theorem distinctNames_settled (seen : List String) (items : List Json) :
    DistinctNames seen (distinctNames seen items).1 ∧
      ∀ name, name ∈ (distinctNames seen items).2 ↔ name ∈ seen ∨
        name ∈ (distinctNames seen items).1.filterMap Json.asString := by
  induction items generalizing seen with
  | nil =>
      exact ⟨⟨fun item hitem => absurd hitem List.not_mem_nil, List.nodup_nil,
        fun name hname => absurd hname List.not_mem_nil⟩,
        fun name => by simp [distinctNames]⟩
  | cons item rest ih =>
      have hagain := lowercaseString_lowercaseString item
      rw [distinctNames]
      split
      · rename_i name hname
        rw [hname] at hagain
        by_cases hseen : name ∈ seen
        · rw [if_pos hseen]
          exact ih seen
        · rw [if_neg hseen]
          obtain ⟨⟨hlower, hnodup, hfresh⟩, hall⟩ := ih (name :: seen)
          simp only [List.mem_cons, not_or] at hfresh hall
          refine ⟨⟨?_, ?_, ?_⟩, ?_⟩
          · exact List.forall_mem_cons.mpr ⟨hagain, hlower⟩
          · exact List.nodup_cons.mpr
              ⟨fun hmem => (hfresh name hmem).1 rfl, hnodup⟩
          · exact List.forall_mem_cons.mpr
              ⟨hseen, fun other hother => (hfresh other hother).2⟩
          · intro other
            rw [hall]
            simp only [List.filterMap_cons, Json.asString, List.mem_cons]
            tauto
      · rename_i hother
        have hnone : Json.asString (lowercaseString item) = none := by
          cases hlower : lowercaseString item with
          | string name => exact absurd hlower (hother name)
          | _ => rfl
        obtain ⟨⟨hlower, hnodup, hfresh⟩, hall⟩ := ih seen
        refine ⟨⟨List.forall_mem_cons.mpr ⟨hagain, hlower⟩, ?_, ?_⟩, ?_⟩ <;>
          rw [List.filterMap_cons_none hnone]
        · exact hnodup
        · exact hfresh
        · exact hall

theorem distinctNames_of_settled {seen : List String} {items : List Json}
    (hsettled : DistinctNames seen items) :
    (distinctNames seen items).1 = items := by
  induction items generalizing seen with
  | nil => rfl
  | cons item rest ih =>
      obtain ⟨hlower, hnodup, hfresh⟩ := hsettled
      rw [List.forall_mem_cons] at hlower
      rw [distinctNames, hlower.1]
      cases item with
      | string name =>
          have hnames : (Json.string name :: rest).filterMap Json.asString =
              name :: rest.filterMap Json.asString := rfl
          rw [hnames, List.nodup_cons] at hnodup
          rw [hnames, List.forall_mem_cons] at hfresh
          have hrest : DistinctNames (name :: seen) rest := by
            refine ⟨hlower.2, hnodup.2, fun other hother => ?_⟩
            rw [List.mem_cons, not_or]
            exact ⟨fun hsame => hnodup.1 (hsame ▸ hother),
              hfresh.2 other hother⟩
          simp only [if_neg hfresh.1, ih hrest]
      | _ => simp only [ih ⟨hlower.2, hnodup, hfresh⟩]

theorem lowercaseString_adapter {adapter : String}
    (hadapter : adapter ∈ defaultAdapterOrder) :
    lowercaseString (.string adapter) = .string adapter := by
  have hlower : ∀ adapter ∈ defaultAdapterOrder,
      lowercase (trim adapter) = adapter := by
    decide
  exact congrArg Json.string (hlower adapter hadapter)

/-- A completed order names each adapter once, and none is missing. -/
theorem normalizeOrder_settled (items : List Json) :
    DistinctNames [] (normalizeOrder items) := by
  obtain ⟨⟨hlower, hnodup, hfresh⟩, hall⟩ := distinctNames_settled [] items
  have hmissing : ∀ names : List String,
      (names.map Json.string).filterMap Json.asString = names := by
    intro names
    rw [List.filterMap_map]
    exact List.filterMap_some
  refine ⟨?_, ?_, fun _ _ => List.not_mem_nil⟩
  · intro item hitem
    rcases List.mem_append.mp hitem with hitem | hitem
    · exact hlower item hitem
    · obtain ⟨adapter, hadapter, rfl⟩ := List.mem_map.mp hitem
      exact lowercaseString_adapter (List.mem_of_mem_filter hadapter)
  · rw [normalizeOrder, List.filterMap_append, hmissing]
    refine List.nodup_append.mpr
      ⟨hnodup, List.Nodup.filter _ (by decide), ?_⟩
    rintro name hname other hother rfl
    have hnot := of_decide_eq_true (List.mem_filter.mp hother).2
    exact hnot ((hall name).mpr (.inr hname))

theorem normalizeOrder_normalizeOrder (items : List Json) :
    normalizeOrder (normalizeOrder items) = normalizeOrder items := by
  have hsettled := normalizeOrder_settled items
  have hnames := distinctNames_of_settled hsettled
  have hnone : (defaultAdapterOrder.filter fun adapter =>
      adapter ∉ (distinctNames [] (normalizeOrder items)).2) = [] := by
    rw [List.filter_eq_nil_iff]
    intro adapter hadapter hnot
    refine of_decide_eq_true hnot
      (((distinctNames_settled [] _).2 adapter).mpr (.inr ?_))
    rw [hnames, normalizeOrder, List.filterMap_append, List.mem_append]
    by_cases hnamed : adapter ∈ (distinctNames [] items).2
    · rw [(distinctNames_settled [] items).2] at hnamed
      exact .inl (hnamed.resolve_left List.not_mem_nil)
    · refine .inr (List.mem_filterMap.mpr ⟨.string adapter, ?_, rfl⟩)
      exact List.mem_map_of_mem
        (List.mem_filter.mpr ⟨hadapter, decide_eq_true hnamed⟩)
  rw [normalizeOrder, hnames, hnone, List.map_nil, List.append_nil]

theorem normalizeFallback_normalizeFallback (value : Json) :
    normalizeFallback (normalizeFallback value) = normalizeFallback value := by
  by_cases hempty : isNullOrEmpty value = true
  · have hlist : normalizeFallback value = .array [] := if_pos hempty
    rw [hlist]
    rfl
  · cases value with
    | array items =>
        exact congrArg Json.array
          (distinctNames_of_settled (distinctNames_settled [] items).1)
    | _ => simp only [normalizeFallback, if_neg hempty]

end Lists

section Entries

variable (text : AddressText)

/-- What is done to the fields of a direct endpoint or a bridge. -/
def candidateChanges : List (String × (Json → Json)) :=
  [("ip", canonicalizeIpValue text), ("transport", lowercaseString),
    ("adapter", lowercaseString), ("label", trimString),
    ("key_file", trimString), ("route_file", trimString),
    ("sni", trimString), ("edge_label", trimString),
    ("tls_ca_file", trimString), ("ws_path", trimString),
    ("shroud_profile", trimString), ("tls_cert_sha256", canonicalizePin),
    ("allowed_fallback", normalizeFallback)]

def applyChanges (changes : List (String × (Json → Json)))
    (fields : List (String × Json)) : List (String × Json) :=
  changes.foldl (fun fields change => modify change.2 change.1 fields) fields

/-- The label of a bridge, or one made from its place in the list. -/
def bridgeLabel (index : Nat) (fields : List (String × Json)) : String :=
  match (fields.lookup "label").bind Json.asString with
  | some label =>
      if label = "" then "bridge-" ++ toString (index + 1) else label
  | none => "bridge-" ++ toString (index + 1)

def normalizeItem (isBridge : Bool) (index : Nat) : Json → Json
  | .object fields =>
      let fields := applyChanges (candidateChanges text) fields
      if isBridge then
        .object (insert "label" (.string (bridgeLabel index fields)) fields)
      else .object fields
  | item => item

abbrev DirectKey := String × String × Nat

def directKeyOf (field : String → Option Json) : Option DirectKey :=
  match field "ip", field "port" with
  | some (.string ip), some (.number (.posInt port)) =>
      some (((field "transport").bind Json.asString).getD "tcp", ip,
        port.toNat)
  | _, _ => none

/-- Only objects are compared with the direct endpoints before them. -/
def repeatKey (isBridge : Bool) : Json → Option DirectKey
  | .object fields =>
      if isBridge then none else directKeyOf fun name => fields.lookup name
  | _ => none

/-- The entries of a list in their turn; a direct endpoint that was there
before is left out. -/
def normalizeItems (isBridge : Bool) :
    Nat → List DirectKey → List Json → List Json
  | _, _, [] => []
  | index, keys, item :: rest =>
      let item := normalizeItem text isBridge index item
      match repeatKey isBridge item with
      | some key =>
          if key ∈ keys then normalizeItems isBridge (index + 1) keys rest
          else item :: normalizeItems isBridge (index + 1) (key :: keys) rest
      | none => item :: normalizeItems isBridge (index + 1) keys rest

def normalizeCandidateList (isBridge : Bool) : Json → Json
  | .array items => .array (normalizeItems text isBridge 0 [] items)
  | value => value

section Changes

variable {changes : List (String × (Json → Json))}

theorem keys_applyChanges (fields : List (String × Json)) :
    (applyChanges changes fields).map Prod.fst = fields.map Prod.fst := by
  induction changes generalizing fields with
  | nil => rfl
  | cons change rest ih => exact (ih _).trans (keys_modify _ _ _)

/-- Changes for distinct names do not get into each other's way. -/
theorem lookup_applyChanges (hnodup : (changes.map Prod.fst).Nodup)
    (fields : List (String × Json)) (name : String) :
    (applyChanges changes fields).lookup name =
      (fields.lookup name).map ((changes.lookup name).getD id) := by
  induction changes generalizing fields with
  | nil => exact Option.map_id_apply.symm
  | cons change rest ih =>
      rw [List.map_cons, List.nodup_cons] at hnodup
      have hrest : applyChanges (change :: rest) fields =
          applyChanges rest (modify change.2 change.1 fields) := rfl
      rw [hrest, ih hnodup.2, lookup_modify, lookup_cons]
      by_cases hname : name = change.1
      · have hnone : rest.lookup name = none := by
          rw [List.lookup_eq_none_iff, hname]
          intro other hother
          rw [bne_iff_ne]
          intro hsame
          exact hnodup.1 (hsame ▸ List.mem_map_of_mem hother)
        rw [if_pos hname, if_pos hname, hnone, Option.getD_some,
          Option.getD_none, Option.map_id_apply]
      · rw [if_neg hname, if_neg hname]

/-- None of the changes does anything to the fields it is for. -/
def Unchanged (changes : List (String × (Json → Json)))
    (field : String → Option Json) : Prop :=
  ∀ change ∈ changes, ∀ value, field change.1 = some value →
    change.2 value = value

theorem map_change_of_unchanged {field : String → Option Json}
    (hunchanged : Unchanged changes field) (name : String) :
    (field name).map ((changes.lookup name).getD id) = field name := by
  cases hvalue : field name with
  | none => rfl
  | some value =>
      cases hchange : changes.lookup name with
      | none => rfl
      | some change =>
          rw [Option.map_some, Option.getD_some]
          exact congrArg some (hunchanged (name, change)
            (mem_of_lookup hchange) value hvalue)

end Changes

section Candidates

variable {text}

theorem candidateChanges_nodup :
    ((candidateChanges text).map Prod.fst).Nodup := by
  change (["ip", "transport", "adapter", "label", "key_file", "route_file",
    "sni", "edge_label", "tls_ca_file", "ws_path", "shroud_profile",
    "tls_cert_sha256", "allowed_fallback"] : List String).Nodup
  decide

theorem candidateChanges_again {change : String × (Json → Json)}
    (hchange : change ∈ candidateChanges text) (hip : change.1 ≠ "ip")
    (value : Json) : change.2 (change.2 value) = change.2 value := by
  simp only [candidateChanges, List.mem_cons, List.not_mem_nil,
    or_false] at hchange
  rcases hchange with rfl | rfl | rfl | rfl | rfl | rfl | rfl | rfl | rfl |
    rfl | rfl | rfl | rfl
  · exact absurd rfl hip
  · exact lowercaseString_lowercaseString value
  · exact lowercaseString_lowercaseString value
  all_goals try exact trimString_trimString value
  · exact canonicalizePin_canonicalizePin value
  · exact normalizeFallback_normalizeFallback value

/-- Fields that were changed stay, if their address can be read. -/
theorem unchanged_applyChanges (haddresses : PlainAddresses text)
    {fields : List (String × Json)} {ip : String}
    (hip : (applyChanges (candidateChanges text) fields).lookup "ip" =
      some (.string ip))
    (hvalid : (text.parseIp ip).isSome = true) :
    Unchanged (candidateChanges text)
      fun name => (applyChanges (candidateChanges text) fields).lookup
        name := by
  intro change hchange value hvalue
  have hlookup : (candidateChanges text).lookup change.1 = some change.2 :=
    lookup_of_mem candidateChanges_nodup hchange
  dsimp only at hvalue
  rw [lookup_applyChanges candidateChanges_nodup, hlookup] at hvalue
  obtain ⟨old, hold, rfl⟩ := Option.map_eq_some_iff.mp hvalue
  by_cases hname : change.1 = "ip"
  · rw [hname] at hlookup hold
    have hchange : change.2 = canonicalizeIpValue text :=
      (Option.some.inj hlookup).symm
    rw [lookup_applyChanges candidateChanges_nodup, hlookup, hold,
      Option.map_some, Option.getD_some, hchange] at hip
    rw [Option.getD_some, hchange, Option.some.inj hip]
    cases old with
    | string written =>
        have hshown : canonicalizeIp text written = ip := by
          simpa [canonicalizeIpValue] using hip
        rw [← hshown] at hvalid ⊢
        exact congrArg Json.string
          (canonicalizeIp_canonicalizeIp haddresses hvalid)
    | _ => simp [canonicalizeIpValue] at hip
  · exact candidateChanges_again hchange hname old

theorem trim_bridge (index : Nat) :
    trim ("bridge-" ++ toString index) = "bridge-" ++ toString index := by
  have hfront : "bridge-".toList.any isWhitespace = false := by decide
  apply trim_eq_self
  intro char hchar
  rw [String.toList_append, List.mem_append, Nat.toString_eq_repr,
    Nat.toList_repr] at hchar
  rcases hchar with hchar | hchar
  · exact Bool.eq_false_iff.mpr (List.any_eq_false.mp hfront char hchar)
  · have hdigit : 48 ≤ char.toNat ∧ char.toNat ≤ 57 := by
      simpa [Char.isDigit, UInt32.le_iff_toNat_le] using
        Nat.isDigit_of_mem_toDigits (by decide) (by decide) hchar
    exact isWhitespace_printed (by omega) (by omega)

theorem trimString_of_trimmed {value : String} (htrimmed : trim value = value)
    (hne : value ≠ "") : trimString (.string value) = .string value := by
  simp only [trimString, htrimmed, if_neg hne]

theorem trimString_bridge (index : Nat) :
    trimString (.string ("bridge-" ++ toString index)) =
      .string ("bridge-" ++ toString index) := by
  apply trimString_of_trimmed (trim_bridge index)
  intro hempty
  have hchars := congrArg String.toList hempty
  rw [String.toList_append] at hchars
  cases hchars

/-- The label a bridge is given has no white space around it. -/
theorem trimString_bridgeLabel (index : Nat)
    (fields : List (String × Json)) :
    trimString (.string (bridgeLabel index
        (applyChanges (candidateChanges text) fields))) =
      .string (bridgeLabel index
        (applyChanges (candidateChanges text) fields)) := by
  rw [bridgeLabel, lookup_applyChanges candidateChanges_nodup]
  split
  · rename_i label hlabel
    by_cases hempty : label = ""
    · rw [if_pos hempty]
      exact trimString_bridge _
    · rw [if_neg hempty]
      obtain ⟨value, hvalue, hstring⟩ := Option.bind_eq_some_iff.mp hlabel
      obtain ⟨old, -, hold⟩ := Option.map_eq_some_iff.mp hvalue
      have hvalue : trimString old = .string label := by
        rw [← Json.asString_eq_some_iff.mp hstring]
        exact hold
      rw [← hvalue]
      exact trimString_trimString old
  · exact trimString_bridge _

end Candidates

end Entries

section Root

def edgeChanges : List (String × (Json → Json)) :=
  [("host", trimString), ("notes", trimString)]

def normalizeEdge : Json → Json
  | .object fields => .object (applyChanges edgeChanges fields)
  | edge => edge

def normalizeEdges : List (String × Json) → List (String × Json) →
    Except SnapError (List (String × Json))
  | normalized, [] => .ok normalized
  | normalized, edge :: rest =>
      if trim edge.1 ∈ normalized.map Prod.fst then
        .error (.invalid
          "edge profile labels collide after whitespace normalization")
      else
        normalizeEdges
          (insert (trim edge.1) (normalizeEdge edge.2) normalized) rest

def normalizeEdgeProfiles : Json → Except SnapError Json
  | .object edges => do
      let normalized ← normalizeEdges [] edges
      pure (.object normalized)
  | value => .ok value

/-- A missing order is completed like an empty one; an order that is neither
missing nor a list stays, to be rejected. -/
def normalizePreferences : Json → Json
  | .object preferences =>
      match (preferences.lookup "adapter_order").map fun value =>
          if isNullOrEmpty value then .array [] else value with
      | none => .object (insert "adapter_order" (.array (normalizeOrder []))
          preferences)
      | some (.array items) => .object (insert "adapter_order"
          (.array (normalizeOrder items)) preferences)
      | some _ => .object preferences
  | value => value

def normalizeRetry : Json → Json
  | .object retry => .object (modify lowercaseString "round_order" retry)
  | value => value

def nullTo (default value : Json) : Json :=
  match value with
  | .null => default
  | value => value

/-- Edge profiles that got through stand in their order under labels without
white space around them. -/
theorem normalizeEdges_eq_ok
    {normalized entries result : List (String × Json)}
    (hresult : normalizeEdges normalized entries = .ok result)
    (horder : InOrder normalized)
    (htrimmed : ∀ edge ∈ normalized, trim edge.1 = edge.1) :
    InOrder result ∧ (∀ edge ∈ result, trim edge.1 = edge.1) ∧
      result.Perm (normalized ++
        entries.map fun edge => (trim edge.1, normalizeEdge edge.2)) := by
  induction entries generalizing normalized with
  | nil =>
      rw [← Except.ok.inj hresult, List.map_nil, List.append_nil]
      exact ⟨horder, htrimmed, List.Perm.refl _⟩
  | cons edge rest ih =>
      rw [normalizeEdges] at hresult
      split at hresult
      · cases hresult
      · rename_i hnew
        have hperm := @insert_perm _ _ _ _ (normalizeEdge edge.2) _ hnew
        have hinserted : ∀ entry ∈ insert (trim edge.1)
            (normalizeEdge edge.2) normalized, trim entry.1 = entry.1 := by
          intro entry hentry
          rcases List.mem_cons.mp (hperm.mem_iff.mp hentry) with rfl | hold
          · exact trim_trim edge.1
          · exact htrimmed entry hold
        obtain ⟨hsorted, hlabels, hsame⟩ :=
          ih hresult (insert_inOrder horder) hinserted
        refine ⟨hsorted, hlabels, hsame.trans ?_⟩
        rw [List.map_cons]
        exact (hperm.append_right _).trans List.perm_middle.symm

/-- Edge profiles in their order, under such labels, stay at their places. -/
theorem normalizeEdges_of_inOrder
    {normalized entries : List (String × Json)}
    (horder : ((normalized ++ entries).map Prod.fst).Pairwise (· < ·))
    (htrimmed : ∀ edge ∈ entries, trim edge.1 = edge.1) :
    normalizeEdges normalized entries = .ok (normalized ++
      entries.map fun edge => (edge.1, normalizeEdge edge.2)) := by
  induction entries generalizing normalized with
  | nil => rw [normalizeEdges, List.map_nil, List.append_nil]
  | cons edge rest ih =>
      rw [List.forall_mem_cons] at htrimmed
      have hlast : ∀ entry ∈ normalized, entry.1 < edge.1 := by
        rw [List.map_append, List.pairwise_append] at horder
        intro entry hentry
        exact horder.2.2 entry.1 (List.mem_map_of_mem hentry) edge.1
          List.mem_cons_self
      have hnew : edge.1 ∉ normalized.map Prod.fst := by
        rintro hold
        obtain ⟨entry, hentry, hsame⟩ := List.mem_map.mp hold
        exact (hlast entry hentry).ne hsame
      have hrest := @ih (normalized ++ [(edge.1, normalizeEdge edge.2)])
        (by simpa using horder) htrimmed.2
      rw [normalizeEdges, htrimmed.1, if_neg hnew, insert_last hlast, hrest,
        List.map_cons, List.append_assoc]
      rfl

variable (text : AddressText)

/-- What is done to the members of the root, but for the edge profiles. -/
def rootChanges : List (String × (Json → Json)) :=
  [("profile_name", trimString), ("peer_alias", trimString),
    ("mode", lowercaseString),
    ("direct_endpoints", fun value =>
      normalizeCandidateList text false (nullTo (.array []) value)),
    ("bridges", fun value =>
      normalizeCandidateList text true (nullTo (.array []) value)),
    ("retry_policy", fun value =>
      normalizeRetry (nullTo (.object []) value)),
    ("transport_preferences", fun value =>
      normalizePreferences (nullTo (.object []) value))]

/-- The edge profiles can fail. -/
def normalizeRootEdges (root : List (String × Json)) :
    Except SnapError (List (String × Json)) :=
  match root.lookup "edge_profiles" with
  | some edges => do
      let edges ← normalizeEdgeProfiles (nullTo (.object []) edges)
      pure (insert "edge_profiles" edges root)
  | none => .ok root

/-- Preferences that are not there are added. -/
def withPreferences (root : List (String × Json)) : List (String × Json) :=
  match root.lookup "transport_preferences" with
  | some _ => root
  | none => insert "transport_preferences" (.object []) root

def normalizePythonProfile : Json → Except SnapError Json
  | .object root => do
      let root ← normalizeRootEdges root
      pure (.object (applyChanges (rootChanges text) (withPreferences root)))
  | _ => .error (.invalid "profile root must be an object")

theorem rootChanges_nodup : ((rootChanges text).map Prod.fst).Nodup := by
  change (["profile_name", "peer_alias", "mode", "direct_endpoints",
    "bridges", "retry_policy", "transport_preferences"] :
      List String).Nodup
  decide

theorem lookup_withPreferences (root : List (String × Json))
    (name : String) :
    (withPreferences root).lookup name =
      if name = "transport_preferences" then
        some ((root.lookup name).getD (.object []))
      else root.lookup name := by
  rw [withPreferences]
  split
  · rename_i value hvalue
    by_cases hname : name = "transport_preferences"
    · rw [if_pos hname, hname, hvalue]
      rfl
    · rw [if_neg hname]
  · rename_i hnone
    rw [lookup_insert]
    by_cases hname : name = "transport_preferences"
    · rw [if_pos hname, if_pos hname, hname, hnone]
      rfl
    · rw [if_neg hname, if_neg hname]

theorem normalizePythonProfile_eq_ok_iff {root : List (String × Json)}
    {value : Json} :
    normalizePythonProfile text (.object root) = .ok value ↔
      ∃ edged, normalizeRootEdges root = .ok edged ∧
        .object (applyChanges (rootChanges text) (withPreferences edged)) =
          value := by
  rw [normalizePythonProfile, bind_eq_ok]
  simp only [pure_eq_ok]

theorem lookup_normalizeRootEdges {root edged : List (String × Json)}
    (hedged : normalizeRootEdges root = .ok edged) {name : String}
    (hname : name ≠ "edge_profiles") :
    edged.lookup name = root.lookup name := by
  rw [normalizeRootEdges] at hedged
  split at hedged
  · obtain ⟨edges, -, hedged⟩ := bind_eq_ok.mp hedged
    rw [← Except.ok.inj hedged, lookup_insert, if_neg hname]
  · rw [Except.ok.inj hedged]

end Root

end Shph.SnapPath
