/-
When a JA4 fingerprint is exact.  The test for GREASE values looks at the low
halves of both bytes only, so that it drops 256 values where sixteen are
reserved.
-/
import Shph.Ja4
import Shph.Library.SortOrder
import Shph.SessionDirectory

namespace Shph.Ja4

open ByteCodec SortOrder

/-- The sixteen values that are reserved for GREASE. -/
def greaseCodes : List UInt16 :=
  [0x0a0a, 0x1a1a, 0x2a2a, 0x3a3a, 0x4a4a, 0x5a5a, 0x6a6a, 0x7a7a, 0x8a8a,
    0x9a9a, 0xaaaa, 0xbaba, 0xcaca, 0xdada, 0xeaea, 0xfafa]

def withoutGrease (values : List UInt16) : List UInt16 :=
  values.filter fun value => decide (value ∉ greaseCodes)

/-- A value that the test takes for a reserved one. -/
def Lookalike (value : UInt16) : Prop :=
  isGrease value = true ∧ value ∉ greaseCodes

theorem isGrease_iff (value : UInt16) :
    isGrease value = true ↔
      value.toNat % 16 = 10 ∧ value.toNat / 256 % 16 = 10 := by
  have hlow : (value.toNat &&& 3855) % 256 = value.toNat % 16 := by
    rw [show 256 = 2 ^ 8 by decide, Nat.and_mod_two_pow,
      show 3855 % 2 ^ 8 = 2 ^ 4 - 1 by decide, Nat.and_two_pow_sub_one_eq_mod]
    omega
  have hhigh : (value.toNat &&& 3855) / 256 = value.toNat / 256 % 16 := by
    rw [show 256 = 2 ^ 8 by decide, Nat.and_div_two_pow,
      show 3855 / 2 ^ 8 = 2 ^ 4 - 1 by decide, Nat.and_two_pow_sub_one_eq_mod]
  have hword : isGrease value = true ↔ (value.toNat &&& 3855) = 2570 := by
    rw [isGrease, beq_iff_eq, ← UInt16.toNat_inj, UInt16.toNat_and]
    rfl
  rw [hword]
  omega

/-- The reserved values have equal bytes with the low half ten. -/
theorem mem_greaseCodes_iff (value : UInt16) :
    value ∈ greaseCodes ↔
      value.toNat / 256 = value.toNat % 256 ∧ value.toNat % 16 = 10 := by
  constructor
  · intro hmem
    have hall : ∀ code ∈ greaseCodes,
        code.toNat / 256 = code.toNat % 256 ∧ code.toNat % 16 = 10 := by
      simp [greaseCodes]
    exact hall value hmem
  · rintro ⟨hbytes, hlow⟩
    have hlt := value.toNat_lt
    have hall : ∀ high < 16,
        UInt16.ofNat (257 * (16 * high + 10)) ∈ greaseCodes := by
      decide +kernel
    have hvalue : value.toNat = 257 * (16 * (value.toNat / 4096) + 10) := by
      omega
    rw [← UInt16.ofNat_toNat (x := value), hvalue]
    exact hall _ (by omega)

theorem isGrease_of_mem {value : UInt16} (hmem : value ∈ greaseCodes) :
    isGrease value = true := by
  obtain ⟨hbytes, hlow⟩ := (mem_greaseCodes_iff value).mp hmem
  rw [isGrease_iff]
  omega

section Lists

variable {values others : List UInt16}

/-- Dropping what the test takes for GREASE drops the reserved values. -/
theorem filteredValues_withoutGrease (values : List UInt16) :
    filteredValues (withoutGrease values) = filteredValues values := by
  rw [filteredValues, withoutGrease, List.filter_filter]
  apply List.filter_congr
  intro value _
  cases hgrease : isGrease value with
  | true => rfl
  | false =>
      have hnot : value ∉ greaseCodes := by
        intro hmem
        rw [isGrease_of_mem hmem] at hgrease
        exact Bool.noConfusion hgrease
      simp [hnot]

/-- Without lookalikes exactly the reserved values are dropped. -/
theorem filteredValues_eq_iff :
    filteredValues values = withoutGrease values ↔
      ∀ value ∈ values, ¬ Lookalike value := by
  constructor
  · intro hsame value hvalue ⟨hgrease, hnot⟩
    have hmem : value ∈ withoutGrease values :=
      List.mem_filter.mpr ⟨hvalue, decide_eq_true hnot⟩
    rw [← hsame] at hmem
    have hkept := (List.mem_filter.mp hmem).2
    rw [hgrease] at hkept
    exact Bool.noConfusion hkept
  · intro hnone
    apply List.filter_congr
    intro value hvalue
    have hlookalike := hnone value hvalue
    by_cases hmem : value ∈ greaseCodes
    · simp [isGrease_of_mem hmem, hmem]
    · have hplain : isGrease value = false := by
        by_contra hgrease
        exact hlookalike ⟨by simpa using hgrease, hmem⟩
      simp [hplain, hmem]

/-- A list keeps its values when none of them is a lookalike. -/
theorem count_filteredValues_iff :
    (∀ value ∉ greaseCodes,
      (filteredValues values).count value = values.count value) ↔
      ∀ value ∈ values, ¬ Lookalike value := by
  constructor
  · intro hcount value hvalue ⟨hgrease, hnot⟩
    have hzero : (filteredValues values).count value = 0 := by
      rw [List.count_eq_zero]
      intro hmem
      have hkept := (List.mem_filter.mp hmem).2
      rw [hgrease] at hkept
      exact Bool.noConfusion hkept
    have hsame := hcount value hnot
    rw [hzero, eq_comm, List.count_eq_zero] at hsame
    exact hsame hvalue
  · intro hnone value hnot
    rw [filteredValues_eq_iff.mpr hnone]
    exact List.count_filter (decide_eq_true hnot)

theorem sorted_eq_of_perm (hperm : values.Perm others) :
    sorted values = sorted others := by
  apply mergeSort_eq_of_perm (totalPreorder_nat.byPart UInt16.toNat) hperm
  intro left _ right _ hle hge
  have hleft := of_decide_eq_true hle
  have hright := of_decide_eq_true hge
  exact UInt16.toNat_inj.mp (Nat.le_antisymm hleft hright)

theorem filteredValues_perm (hperm : values.Perm others) :
    (filteredValues values).Perm (filteredValues others) :=
  hperm.filter _

end Lists

section Chunk

/-- The first and the last element. -/
def ends {α : Type} (items : List α) : List α :=
  items.head?.toList ++ items.getLast?.toList

/-- The ends of the first protocol if they are letters or digits, otherwise the
ends of its hexadecimal text; zeros if there is no protocol. -/
def alpnEnds (alpn : Option Bytes) : List Char :=
  let protocol := alpn.getD []
  let characters := (ends protocol).map fun byte => Char.ofNat byte.toNat
  if protocol = [] then ['0', '0']
  else if characters.all Char.isAlphanum then characters
  else ends (hexEncode protocol).toList

/-- A count up to 99, in two digits. -/
def countText (count : Nat) : String :=
  String.ofList ((Nat.toDigits 10 (min count 99)).leftpad 2 '0')

theorem alpnEnds_eq (alpn : Option Bytes) :
    alpnEnds alpn = [(alpnMarker alpn).1, (alpnMarker alpn).2] := by
  cases alpn with
  | none => rfl
  | some protocol =>
      cases protocol with
      | nil => rfl
      | cons first rest =>
          have hends : ends (first :: rest) =
              [first, (first :: rest).getLast (List.cons_ne_nil _ _)] := by
            rw [ends, List.getLast?_eq_some_getLast (List.cons_ne_nil _ _)]
            rfl
          have hdigits : ends (hexEncode (first :: rest)).toList =
              [hexDigit (first.toNat / 16), hexDigit (((first :: rest).getLast
                (List.cons_ne_nil _ _)).toNat % 16)] := by
            rw [hexEncode, String.toList_ofList, ends]
            nth_rewrite 2 [← List.dropLast_append_getLast
              (List.cons_ne_nil first rest)]
            rw [List.flatMap_append, List.flatMap_singleton]
            simp
          simp only [alpnEnds, Option.getD_some, hends, hdigits, alpnMarker,
            List.map_cons, List.map_nil, List.all_cons, List.all_nil,
            Bool.and_true, isAsciiAlphanumeric, reduceCtorEq, if_false]
          split_ifs with halpha
          · simp only [halpha, if_true]
          · simp only [halpha]
            rfl

theorem countText_eq (count : Nat) :
    countText count = twoDigits (min count 99) := by
  have hall : ∀ number < 100,
      String.ofList ((Nat.toDigits 10 number).leftpad 2 '0') =
        twoDigits number := by decide +kernel
  exact hall _ (by omega)

end Chunk

namespace Ja4ClientHello

/-- Transport, version, whether there is a server name, the two counts and the
marker of the first protocol. -/
def chunk (hello : Ja4ClientHello) (ciphers extensions : List UInt16) :
    String :=
  String.ofList [hello.transport.marker] ++ hello.tlsVersion.marker ++
    (if hello.serverNamePresent then "d" else "i") ++
    countText ciphers.length ++ countText extensions.length ++
    String.ofList (alpnEnds hello.firstAlpn)

theorem firstChunk_eq (hello : Ja4ClientHello)
    (ciphers extensions : List UInt16) :
    hello.firstChunk ciphers extensions = hello.chunk ciphers extensions := by
  simp only [firstChunk, chunk, countText_eq, alpnEnds_eq]

/-- The fingerprint of three lists: how many there are, and the hashes of the
sorted cipher suites and of the sorted extensions with the signature schemes in
their order.  The hash of an empty list is zero. -/
def formed (hello : Ja4ClientHello) (sha256 : Bytes → FixedBytes 32)
    (ciphers extensions signatures : List UInt16) : String :=
  let hashed := extensions.filter fun value =>
    value != tlsExtServerName && value != tlsExtAlpn
  let cipherHash :=
    if ciphers = [] then zeroHash
    else hash12 sha256 (joined (sorted ciphers))
  let extensionHash :=
    if hashed = [] then zeroHash
    else if signatures = [] then hash12 sha256 (joined (sorted hashed))
    else hash12 sha256 (joined (sorted hashed) ++ "_" ++ joined signatures)
  hello.chunk ciphers extensions ++ "_" ++ cipherHash ++ "_" ++ extensionHash

/-- The fingerprint that JA4 asks for: of the lists without the sixteen
reserved values. -/
def reference (hello : Ja4ClientHello) (sha256 : Bytes → FixedBytes 32) :
    String :=
  hello.formed sha256 (withoutGrease hello.cipherSuites)
    (withoutGrease hello.extensionTypes)
    (withoutGrease hello.signatureSchemes)

/-- The same ClientHello up to reserved values in its lists. -/
structure SameWithoutGrease (hello other : Ja4ClientHello) : Prop where
  transport : other.transport = hello.transport
  tlsVersion : other.tlsVersion = hello.tlsVersion
  serverName : other.serverNamePresent = hello.serverNamePresent
  alpn : other.firstAlpn = hello.firstAlpn
  ciphers : withoutGrease other.cipherSuites =
    withoutGrease hello.cipherSuites
  extensions : withoutGrease other.extensionTypes =
    withoutGrease hello.extensionTypes
  signatures : withoutGrease other.signatureSchemes =
    withoutGrease hello.signatureSchemes

/-- No value that is not reserved is missing from a list that the fingerprint
counts or hashes.  Signature schemes are hashed together with extensions
only. -/
structure Lossless (hello : Ja4ClientHello) : Prop where
  ciphers : ∀ value ∉ greaseCodes,
    hello.ciphers.count value = hello.cipherSuites.count value
  extensions : ∀ value ∉ greaseCodes,
    hello.extensions.count value = hello.extensionTypes.count value
  signatures : hello.extensionValues ≠ [] → ∀ value ∉ greaseCodes,
    (filteredValues hello.signatureSchemes).count value =
      hello.signatureSchemes.count value

/-- The ClientHello with its cipher suites and extensions in another order. -/
def reordered (hello : Ja4ClientHello) (ciphers extensions : List UInt16) :
    Ja4ClientHello :=
  { hello with cipherSuites := ciphers, extensionTypes := extensions }

/-- What makes a fingerprint exact. -/
structure Exact (hello : Ja4ClientHello) (sha256 : Bytes → FixedBytes 32) :
    Prop where
  value : hello.fingerprint sha256 = hello.reference sha256
  permuted : ∀ ciphers extensions, ciphers.Perm hello.cipherSuites →
    extensions.Perm hello.extensionTypes →
      (hello.reordered ciphers extensions).fingerprint sha256 =
        hello.fingerprint sha256
  greased : ∀ other, hello.SameWithoutGrease other →
    other.fingerprint sha256 = hello.fingerprint sha256
  lossless : hello.Lossless

/-- No lookalike is in a list that the fingerprint counts or hashes. -/
def NoLookalike (hello : Ja4ClientHello) : Prop :=
  (∀ value ∈ hello.cipherSuites, ¬ Lookalike value) ∧
    (∀ value ∈ hello.extensionTypes, ¬ Lookalike value) ∧
    ((∃ value ∈ hello.extensionTypes, value ∉ greaseCodes ∧
        value ≠ tlsExtServerName ∧ value ≠ tlsExtAlpn) →
      ∀ value ∈ hello.signatureSchemes, ¬ Lookalike value)

section

variable {hello : Ja4ClientHello} {sha256 : Bytes → FixedBytes 32}

theorem eq_nil_iff_of_perm {values others : List UInt16}
    (hperm : values.Perm others) : values = [] ↔ others = [] := by
  rw [← List.length_eq_zero_iff, hperm.length_eq, List.length_eq_zero_iff]

theorem sorted_eq_nil_iff {values : List UInt16} :
    sorted values = [] ↔ values = [] :=
  eq_nil_iff_of_perm (List.mergeSort_perm _ _)

theorem listText_eq_empty_iff {values : List UInt16} :
    listText values false = "" ↔ values = [] := by
  rw [listText, if_neg Bool.false_ne_true, joined_eq_empty_iff,
    sorted_eq_nil_iff]

theorem firstChunk_length (hello : Ja4ClientHello)
    (ciphers extensions : List UInt16) :
    (hello.firstChunk ciphers extensions).toList.length = 10 := by
  have hversion : hello.tlsVersion.marker.toList.length = 2 := by
    cases hello.tlsVersion <;> rfl
  have hname : (if hello.serverNamePresent then "d" else "i").toList.length =
      1 := by
    cases hello.serverNamePresent <;> rfl
  simp only [firstChunk, twoDigits, String.toList_append, String.toList_ofList,
    List.length_append, List.length_cons, List.length_nil, hversion, hname]

/-- A fingerprint starts with its first chunk. -/
theorem take_formed (hello : Ja4ClientHello) (sha256 : Bytes → FixedBytes 32)
    (ciphers extensions signatures : List UInt16) :
    (hello.formed sha256 ciphers extensions signatures).toList.take 10 =
      (hello.firstChunk ciphers extensions).toList := by
  rw [firstChunk_eq, formed, String.toList_append, String.toList_append,
    String.toList_append, String.toList_append, List.append_assoc,
    List.append_assoc, List.append_assoc]
  refine List.take_left' ?_
  rw [← firstChunk_eq]
  exact firstChunk_length hello ciphers extensions

/-- The code forms the fingerprint of the lists that it filters. -/
theorem fingerprint_eq_formed (hello : Ja4ClientHello)
    (sha256 : Bytes → FixedBytes 32) :
    hello.fingerprint sha256 = hello.formed sha256
      (filteredValues hello.cipherSuites)
      (filteredValues hello.extensionTypes)
      (filteredValues hello.signatureSchemes) := by
  have hsignatures : hello.signatureText = "" ↔
      filteredValues hello.signatureSchemes = [] := joined_eq_empty_iff
  have hciphers : hello.ciphers = filteredValues hello.cipherSuites := rfl
  have hextensions : hello.extensions =
    filteredValues hello.extensionTypes := rfl
  have hhashed : hello.extensionValues =
      (filteredValues hello.extensionTypes).filter fun value =>
        value != tlsExtServerName && value != tlsExtAlpn := rfl
  unfold fingerprint formed
  simp only [listText_eq_empty_iff, hsignatures, firstChunk_eq]
  rw [← hhashed, ← hciphers, ← hextensions]
  by_cases hnone : hello.extensionValues = []
  · simp only [hnone, if_true]
    rfl
  · by_cases hunsigned : filteredValues hello.signatureSchemes = []
    · simp only [hnone, hunsigned, if_true, if_false]
      rfl
    · simp only [hnone, hunsigned, if_false]
      rfl

/-- The order of cipher suites and extensions does not matter. -/
theorem formed_perm {ciphers ciphers' extensions extensions' : List UInt16}
    (hciphers : ciphers.Perm ciphers')
    (hextensions : extensions.Perm extensions')
    (signatures : List UInt16) :
    hello.formed sha256 ciphers extensions signatures =
      hello.formed sha256 ciphers' extensions' signatures := by
  have hhashed := hextensions.filter fun value =>
    value != tlsExtServerName && value != tlsExtAlpn
  have hchunk : hello.chunk ciphers extensions =
      hello.chunk ciphers' extensions' := by
    rw [chunk, chunk, hciphers.length_eq, hextensions.length_eq]
  unfold formed
  simp only [hchunk, sorted_eq_of_perm hciphers, sorted_eq_of_perm hhashed,
    eq_nil_iff_of_perm hciphers, eq_nil_iff_of_perm hhashed]

/-- Without extensions to hash, the signature schemes do not matter. -/
theorem formed_of_nothing_hashed {ciphers extensions : List UInt16}
    (hnone : (extensions.filter fun value =>
      value != tlsExtServerName && value != tlsExtAlpn) = [])
    (signatures signatures' : List UInt16) :
    hello.formed sha256 ciphers extensions signatures =
      hello.formed sha256 ciphers extensions signatures' := by
  unfold formed
  simp only [hnone, if_true]

theorem fingerprint_permuted {ciphers extensions : List UInt16}
    (hciphers : ciphers.Perm hello.cipherSuites)
    (hextensions : extensions.Perm hello.extensionTypes) :
    (hello.reordered ciphers extensions).fingerprint sha256 =
      hello.fingerprint sha256 := by
  rw [fingerprint_eq_formed, fingerprint_eq_formed]
  exact formed_perm (filteredValues_perm hciphers)
    (filteredValues_perm hextensions) _

theorem fingerprint_greased {other : Ja4ClientHello}
    (hsame : hello.SameWithoutGrease other) :
    other.fingerprint sha256 = hello.fingerprint sha256 := by
  have hchunk : other.chunk = hello.chunk := by
    funext ciphers extensions
    rw [chunk, chunk, hsame.transport, hsame.tlsVersion,
      hsame.serverName, hsame.alpn]
  rw [fingerprint_eq_formed, fingerprint_eq_formed,
    ← filteredValues_withoutGrease other.cipherSuites,
    ← filteredValues_withoutGrease other.extensionTypes,
    ← filteredValues_withoutGrease other.signatureSchemes, hsame.ciphers,
    hsame.extensions, hsame.signatures, filteredValues_withoutGrease,
    filteredValues_withoutGrease, filteredValues_withoutGrease, formed,
    formed, hchunk]

/-- Which extensions are left to be hashed. -/
theorem extensionValues_ne_nil_iff
    (hplain : ∀ value ∈ hello.extensionTypes, ¬ Lookalike value) :
    hello.extensionValues ≠ [] ↔
      ∃ value ∈ hello.extensionTypes, value ∉ greaseCodes ∧
        value ≠ tlsExtServerName ∧ value ≠ tlsExtAlpn := by
  rw [extensionValues, extensions, filteredValues_eq_iff.mpr hplain,
    withoutGrease, List.filter_filter, Ne, List.filter_eq_nil_iff]
  simp only [Bool.and_eq_true, bne_iff_ne, decide_eq_true_eq, not_forall,
    not_not, exists_prop]
  constructor
  · rintro ⟨value, hmem, ⟨hserver, halpn⟩, hcode⟩
    exact ⟨value, hmem, hcode, hserver, halpn⟩
  · rintro ⟨value, hmem, hcode, hserver, halpn⟩
    exact ⟨value, hmem, ⟨hserver, halpn⟩, hcode⟩

/-- Nothing is lost when there are no lookalikes to lose. -/
theorem lossless_iff : hello.Lossless ↔ hello.NoLookalike := by
  constructor
  · rintro ⟨hciphers, hextensions, hsignatures⟩
    have hplain := count_filteredValues_iff.mp hextensions
    refine ⟨count_filteredValues_iff.mp hciphers, hplain, fun hhashed => ?_⟩
    exact count_filteredValues_iff.mp
      (hsignatures ((extensionValues_ne_nil_iff hplain).mpr hhashed))
  · rintro ⟨hciphers, hplain, hsignatures⟩
    refine ⟨count_filteredValues_iff.mpr hciphers,
      count_filteredValues_iff.mpr hplain, fun hhashed => ?_⟩
    exact count_filteredValues_iff.mpr
      (hsignatures ((extensionValues_ne_nil_iff hplain).mp hhashed))

theorem fingerprint_eq_reference (hplain : hello.NoLookalike) :
    hello.fingerprint sha256 = hello.reference sha256 := by
  obtain ⟨hciphers, hextensions, hsignatures⟩ := hplain
  rw [fingerprint_eq_formed, reference, filteredValues_eq_iff.mpr hciphers]
  by_cases hnone : hello.extensionValues = []
  · have hfiltered := filteredValues_eq_iff.mpr hextensions
    rw [extensionValues, extensions, hfiltered] at hnone
    rw [hfiltered]
    exact formed_of_nothing_hashed hnone _ _
  · have hhashed := (extensionValues_ne_nil_iff hextensions).mp hnone
    rw [filteredValues_eq_iff.mpr hextensions,
      filteredValues_eq_iff.mpr (hsignatures hhashed)]

end

end Ja4ClientHello

/-- A fingerprint is exact when there is no lookalike in a list that it counts
or hashes. -/
theorem fingerprint_exact_iff (hello : Ja4ClientHello)
    (sha256 : Bytes → FixedBytes 32) :
    hello.Exact sha256 ↔ hello.NoLookalike := by
  constructor
  · intro hexact
    exact Ja4ClientHello.lossless_iff.mp hexact.lossless
  · intro hplain
    exact {
      value := Ja4ClientHello.fingerprint_eq_reference hplain
      permuted := fun _ _ hciphers hextensions =>
        Ja4ClientHello.fingerprint_permuted hciphers hextensions
      greased := fun _ hsame => Ja4ClientHello.fingerprint_greased hsame
      lossless := Ja4ClientHello.lossless_iff.mpr hplain }

namespace Ja4Witness

/-- A ClientHello with one extension, whose type no one has reserved. -/
def unassigned : Ja4ClientHello where
  transport := .tcp
  tlsVersion := .tls13
  serverNamePresent := false
  cipherSuites := [0x1301]
  extensionTypes := [0x1a2a]
  firstAlpn := none
  signatureSchemes := []

/-- The extension is counted by JA4 and not by the code. -/
theorem unassigned_is_not_counted :
    ¬ ∃ sha256, unassigned.fingerprint sha256 =
      unassigned.reference sha256 := by
  rintro ⟨sha256, hsame⟩
  have hchunks := congrArg (fun text => text.toList.take 10) hsame
  simp only [Ja4ClientHello.fingerprint_eq_formed, Ja4ClientHello.reference,
    Ja4ClientHello.take_formed] at hchunks
  exact absurd hchunks (by decide)

end Ja4Witness

end Shph.Ja4
