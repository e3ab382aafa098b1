/-
The canonical bytes of an identity record.  They are written field after field
from sorted lists, so they determine the record up to the order of its keys,
endpoints and capabilities, and do not depend on that order.
-/
import Shph.FileSpoolSpec
import Shph.Identity

namespace Shph.Identity

open ByteCodec Checked FieldCode SortOrder IdentityRecord
variable {crypto : RecordCrypto}

theorem validateToken_eq_ok_iff {label value : String} {maxBytes : Nat}
    {done : Unit} : validateToken label value maxBytes = .ok done ↔
      (textBytes value ≠ [] ∧ (textBytes value).length ≤ maxBytes) ∧
        (textBytes value).all tokenByte = true := by
  simp only [validateToken, then_eq_ok, require_eq_ok_iff]

theorem validateText_length {label value : String} {maxBytes : Nat}
    {done : Unit} (hvalid : validateText label value maxBytes = .ok done) :
    (textBytes value).length ≤ maxBytes := by
  simp only [validateText, require_eq_ok_iff] at hvalid
  exact hvalid.2.1

/-- What the checks without signatures establish. -/
structure BodyValid (crypto : RecordCrypto) (record : IdentityRecord) :
    Prop where
  version : record.version = identityRecordVersion
  sequence : record.sequence ≠ 0
  initial : record.sequence = 1 → record.previousRecord = none
  linked : 1 < record.sequence → record.previousRecord ≠ none
  issued : record.issuedAt < record.expiresAt
  lifetime : record.expiresAt.toNat - record.issuedAt.toNat ≤
    maxRecordLifetimeSecs
  profile : validateToken "signature profile" record.signatureProfile
    maxAlgorithmBytes = .ok ()
  keyCount : record.keys ≠ [] ∧ record.keys.length ≤ maxKeys
  keys : ∀ key ∈ record.keys, key.validate crypto = .ok ()
  keyIds : (record.keys.map IdentityKey.keyId).Nodup
  root : (record.keys.filter fun key => key.role = .rootSigning).length = 1
  subject : record.validateSubjectBinding crypto = .ok ()
  endpointCount : record.endpoints.length ≤ maxEndpoints
  endpoints : ∀ endpoint ∈ record.endpoints,
    validateEndpoint endpoint = .ok ()
  endpointIds : (record.endpoints.map fun endpoint => (endpoint.transport,
    endpoint.address, endpoint.priority)).Nodup
  capabilityCount : record.capabilities.length ≤ maxCapabilities
  capabilities : ∀ capability ∈ record.capabilities,
    validateToken "capability" capability maxStringBytes = .ok ()
  capabilityIds : record.capabilities.Nodup
  status : record.validateStatus = .ok ()

theorem validateBody_eq_ok_iff {record : IdentityRecord} {done : Unit} :
    record.validateStructureWithoutSignatures crypto = .ok done ↔
      BodyValid crypto record := by
  simp only [validateStructureWithoutSignatures, then_eq_ok,
    require_eq_ok_iff, checkDistinct_eq_ok_iff, List.not_mem_nil,
    not_false_eq_true, and_true, implies_true, List.map_id]
  constructor
  · rintro ⟨h1, h2, h3, h4, h5, h6, h7, h8, ⟨h9, h10⟩, h11, h12, h13,
      ⟨h14, h15⟩, h16, ⟨h17, h18⟩, h19⟩
    exact ⟨h1, h2, h3, h4, h5, h6, h7, h8, h9, h10, h11, h12, h13, h14, h15,
      h16, h17, h18, h19⟩
  · rintro ⟨h1, h2, h3, h4, h5, h6, h7, h8, h9, h10, h11, h12, h13, h14, h15,
      h16, h17, h18, h19⟩
    exact ⟨h1, h2, h3, h4, h5, h6, h7, h8, ⟨h9, h10⟩, h11, h12, h13,
      ⟨h14, h15⟩, h16, ⟨h17, h18⟩, h19⟩

/-- What the checks of the signatures establish. -/
structure SignaturesValid (record : IdentityRecord) : Prop where
  nonempty : record.signatures ≠ []
  root : ∃ root, record.rootKey = some root ∧
    ∃ signature ∈ record.signatures, signature.keyId = root.keyId
  shapes : ∀ signature ∈ record.signatures,
    validateSignatureShape signature = .ok ()
  keys : ∀ signature ∈ record.signatures,
    record.validateSignatureKey signature = .ok ()
  ids : (record.signatures.map fun signature =>
    (signature.keyId, signature.algorithm)).Nodup

theorem validateSignatures_eq_ok_iff {record : IdentityRecord} {done : Unit} :
    record.validateSignatures = .ok done ↔ SignaturesValid record := by
  simp only [validateSignatures, bind_eq_ok,
    require_eq_ok_iff, valueOr_eq_ok_iff, checkDistinct_eq_ok_iff,
    List.not_mem_nil, not_false_eq_true, and_true, implies_true,
    exists_const, List.any_eq_true, decide_eq_true_eq]
  constructor
  · rintro ⟨hne, root, hroot, ⟨hchecks, hids⟩, hsigned⟩
    exact ⟨hne, ⟨root, hroot, hsigned⟩, fun signature hmem =>
      (hchecks signature hmem).1, fun signature hmem =>
      (hchecks signature hmem).2, hids⟩
  · rintro ⟨hne, ⟨root, hroot, hsigned⟩, hshapes, hkeys, hids⟩
    exact ⟨hne, root, hroot, ⟨fun signature hmem =>
      ⟨hshapes signature hmem, hkeys signature hmem⟩, hids⟩, hsigned⟩

theorem validateStructure_eq_ok_iff {record : IdentityRecord} {done : Unit} :
    record.validateStructure crypto = .ok done ↔
      BodyValid crypto record ∧ SignaturesValid record := by
  simp only [validateStructure, then_eq_ok,
    validateBody_eq_ok_iff, validateSignatures_eq_ok_iff]

/-- Equal but for the signatures and the order of the other lists. -/
structure SameBody (left right : IdentityRecord) : Prop where
  version : left.version = right.version
  subject : left.subject = right.subject
  profile : left.signatureProfile = right.signatureProfile
  sequence : left.sequence = right.sequence
  issued : left.issuedAt = right.issuedAt
  expires : left.expiresAt = right.expiresAt
  previous : left.previousRecord = right.previousRecord
  status : left.status = right.status
  keys : left.keys.Perm right.keys
  endpoints : left.endpoints.Perm right.endpoints
  capabilities : left.capabilities.Perm right.capabilities

theorem lexLe_part_inj {α : Type} {part : α → Bytes} {left right : α}
    (hboth : byPart part lexLe left right = true ∧
      byPart part lexLe right left = true) : part left = part right :=
  lexLe_antisymm hboth.1 hboth.2

theorem totalPreorder_key : TotalPreorder IdentityKey.le :=
  (totalPreorder_lexLe.byPart _).andThen ((totalPreorder_nat.byPart _).andThen
    (totalPreorder_lexLe.byPart _))

theorem totalPreorder_endpoint : TotalPreorder IdentityEndpoint.le :=
  (totalPreorder_lexLe.byPart _).andThen
    ((totalPreorder_lexLe.byPart _).andThen (totalPreorder_nat.byPart _))

theorem totalPreorder_signature : TotalPreorder RecordSignature.le :=
  (totalPreorder_lexLe.byPart _).andThen
    ((totalPreorder_lexLe.byPart _).andThen (totalPreorder_lexLe.byPart _))

theorem totalPreorder_capability : TotalPreorder capabilityLe :=
  totalPreorder_lexLe.byPart _

theorem endpoint_le_antisymm {left right : IdentityEndpoint}
    (hle : left.le right = true) (hge : right.le left = true) :
    left = right := by
  obtain ⟨htransport, hrest⟩ := andThen_both hle hge
  obtain ⟨haddress, hpriority⟩ := andThen_both hrest.1 hrest.2
  have hle := of_decide_eq_true hpriority.1
  have hge := of_decide_eq_true hpriority.2
  obtain ⟨transport, address, priority⟩ := left
  rw [IdentityEndpoint.mk.injEq]
  exact ⟨textBytes_inj (lexLe_part_inj htransport),
    textBytes_inj (lexLe_part_inj haddress),
    UInt16.toNat_inj.mp (Nat.le_antisymm hle hge)⟩

theorem signature_le_antisymm {left right : RecordSignature}
    (hle : left.le right = true) (hge : right.le left = true) :
    left = right := by
  obtain ⟨hkey, hrest⟩ := andThen_both hle hge
  obtain ⟨halgorithm, hsignature⟩ := andThen_both hrest.1 hrest.2
  obtain ⟨keyId, algorithm, signature⟩ := left
  rw [RecordSignature.mk.injEq]
  exact ⟨FixedBytes.ext (lexLe_part_inj hkey),
    textBytes_inj (lexLe_part_inj halgorithm), lexLe_part_inj hsignature⟩

/-- Keys are sorted by their ids, which a valid record has only once. -/
theorem sorted_keys_eq {left right : List IdentityKey}
    (hperm : left.Perm right) (hids : (left.map IdentityKey.keyId).Nodup) :
    left.mergeSort IdentityKey.le = right.mergeSort IdentityKey.le := by
  apply mergeSort_eq_of_perm totalPreorder_key hperm
  intro key hkey other hother hle hge
  have hid := FixedBytes.ext (lexLe_part_inj (andThen_both hle hge).1)
  exact List.inj_on_of_nodup_map hids hkey hother hid

theorem payloadBytes_eq_of_sameBody {left right : IdentityRecord}
    (hleft : BodyValid crypto left) (hsame : SameBody left right) :
    left.payloadBytes = right.payloadBytes := by
  have hkeys := sorted_keys_eq hsame.keys hleft.keyIds
  have hendpoints := mergeSort_eq_of_perm totalPreorder_endpoint
    hsame.endpoints fun _ _ _ _ => endpoint_le_antisymm
  have hcapabilities := mergeSort_eq_of_perm totalPreorder_capability
    hsame.capabilities fun a _ b _ hle hge =>
      textBytes_inj (lexLe_antisymm hle hge)
  simp only [IdentityRecord.payloadBytes, hsame.version, hsame.subject,
    hsame.profile, hsame.sequence, hsame.issued, hsame.expires,
    hsame.previous, hsame.status, hkeys, hendpoints, hcapabilities]

theorem determines_string :
    Determines (fun text => (textBytes text).length < 256 ^ 4) appendString
      id := by
  intro left right restLeft restRight hleft hright heq
  obtain ⟨hbytes, hrest⟩ := determines_prefixed 4 hleft hright heq
  exact ⟨textBytes_inj hbytes, hrest⟩

theorem determines_hash :
    Determines (fun _ => True) (fun hash : Hash32 => hash.val) id :=
  determines_fixed 32

theorem determines_previous :
    Determines (fun _ => True)
      (FieldCode.optional (FixedBytes.val : Hash32 → Bytes)) id := by
  intro left right restLeft restRight _ _ heq
  exact determines_optional determines_hash (fun _ _ => trivial)
    (fun _ _ => trivial) heq

theorem determines_role :
    Determines (fun _ => True) (fun role : KeyRole => [role.code]) id := by
  intro left right restLeft restRight _ _ heq
  obtain ⟨hcode, hrest⟩ := List.cons.inj heq
  refine ⟨?_, hrest⟩
  cases left <;> cases right <;> first | rfl | exact absurd hcode (by decide)

/-- The lengths in a key fit their prefixes. -/
def KeyFits (key : IdentityKey) : Prop :=
  (textBytes key.algorithm).length < 256 ^ 4 ∧
    key.publicKey.length < 256 ^ 4

theorem determines_key : Determines KeyFits IdentityKey.canonical id := by
  have hparts := (((((((determines_role.part IdentityKey.role
    (fun _ (_ : KeyFits _) => trivial)).append
    (determines_string.part IdentityKey.algorithm
      (fun _ hfits => hfits.1))).append
    (determines_hash.part IdentityKey.keyId (fun _ _ => trivial))).append
    ((determines_prefixed 4).part IdentityKey.publicKey
      (fun _ hfits => hfits.2))).append
    (determines_u64.part IdentityKey.notBefore (fun _ _ => trivial))).append
    (determines_u64.part IdentityKey.notAfter (fun _ _ => trivial))).append
    (determines_previous.part IdentityKey.previousKeyId
      (fun _ _ => trivial)))
  intro left right restLeft restRight hleft hright heq
  obtain ⟨hviews, hrest⟩ := hparts hleft hright heq
  simp only [id, Prod.mk.injEq] at hviews
  obtain ⟨⟨⟨⟨⟨⟨hrole, halgorithm⟩, hid⟩, hpublic⟩, hbefore⟩, hafter⟩,
    hprevious⟩ := hviews
  refine ⟨?_, hrest⟩
  obtain ⟨keyId, role, algorithm, publicKey, notBefore, notAfter,
    previousKeyId⟩ := left
  rw [id, id, IdentityKey.mk.injEq]
  exact ⟨hid, hrole, halgorithm, hpublic, hbefore, hafter, hprevious⟩

def EndpointFits (endpoint : IdentityEndpoint) : Prop :=
  (textBytes endpoint.transport).length < 256 ^ 4 ∧
    (textBytes endpoint.address).length < 256 ^ 4

theorem determines_endpoint :
    Determines EndpointFits IdentityEndpoint.canonical id := by
  have hparts := ((determines_string.part IdentityEndpoint.transport
    (fun _ (hfits : EndpointFits _) => hfits.1)).append
    (determines_string.part IdentityEndpoint.address
      (fun _ hfits => hfits.2))).append
    (determines_u16.part IdentityEndpoint.priority (fun _ _ => trivial))
  intro left right restLeft restRight hleft hright heq
  obtain ⟨hviews, hrest⟩ := hparts hleft hright heq
  simp only [id, Prod.mk.injEq] at hviews
  obtain ⟨⟨htransport, haddress⟩, hpriority⟩ := hviews
  refine ⟨?_, hrest⟩
  obtain ⟨transport, address, priority⟩ := left
  rw [id, id, IdentityEndpoint.mk.injEq]
  exact ⟨htransport, haddress, hpriority⟩

def SignatureFits (signature : RecordSignature) : Prop :=
  (textBytes signature.algorithm).length < 256 ^ 4 ∧
    signature.signature.length < 256 ^ 4

theorem determines_signature :
    Determines SignatureFits RecordSignature.canonical id := by
  have hparts := ((determines_hash.part RecordSignature.keyId
    (fun _ (_ : SignatureFits _) => trivial)).append
    (determines_string.part RecordSignature.algorithm
      (fun _ hfits => hfits.1))).append
    ((determines_prefixed 4).part RecordSignature.signature
      (fun _ hfits => hfits.2))
  intro left right restLeft restRight hleft hright heq
  obtain ⟨hviews, hrest⟩ := hparts hleft hright heq
  simp only [id, Prod.mk.injEq] at hviews
  obtain ⟨⟨hid, halgorithm⟩, hsignature⟩ := hviews
  refine ⟨?_, hrest⟩
  obtain ⟨keyId, algorithm, signature⟩ := left
  rw [id, id, RecordSignature.mk.injEq]
  exact ⟨hid, halgorithm, hsignature⟩

def StatusFits (status : RecordStatus) : Prop :=
  ∀ revokedAt reason, status = .revoked revokedAt reason →
    (textBytes reason).length < 256 ^ 4

theorem determines_status :
    Determines StatusFits RecordStatus.canonical id := by
  intro left right restLeft restRight hleft hright heq
  cases left with
  | active =>
      cases right with
      | active => exact ⟨rfl, (List.cons.inj heq).2⟩
      | revoked revokedAt reason =>
          exact absurd (List.cons.inj heq).1 (by decide)
  | revoked revokedAt reason =>
      cases right with
      | active => exact absurd (List.cons.inj heq).1 (by decide)
      | revoked otherAt other =>
          have htail : (bigEndian 8 revokedAt.toNat ++ appendString reason) ++
              restLeft = (bigEndian 8 otherAt.toNat ++ appendString other) ++
                restRight := (List.cons.inj heq).2
          rw [List.append_assoc, List.append_assoc] at htail
          obtain ⟨hat, hreasons⟩ := determines_u64 trivial trivial htail
          obtain ⟨hreason, hrest⟩ := determines_string
            (hleft revokedAt reason rfl) (hright otherAt other rfl) hreasons
          rw [id, id] at hat hreason
          subst hat hreason
          exact ⟨rfl, hrest⟩

/-- Every length and every count in a record fits its prefix. -/
structure BodyFits (record : IdentityRecord) : Prop where
  profile : (textBytes record.signatureProfile).length < 256 ^ 4
  status : StatusFits record.status
  keys : (record.keys.mergeSort IdentityKey.le).length < 256 ^ 4 ∧
    ∀ key ∈ record.keys.mergeSort IdentityKey.le, KeyFits key
  endpoints :
    (record.endpoints.mergeSort IdentityEndpoint.le).length < 256 ^ 4 ∧
      ∀ endpoint ∈ record.endpoints.mergeSort IdentityEndpoint.le,
        EndpointFits endpoint
  capabilities :
    (record.capabilities.mergeSort capabilityLe).length < 256 ^ 4 ∧
      ∀ capability ∈ record.capabilities.mergeSort capabilityLe,
        (textBytes capability).length < 256 ^ 4

theorem token_fits {label value : String} {maxBytes : Nat} {done : Unit}
    (hvalid : validateToken label value maxBytes = .ok done)
    (hmax : maxBytes < 256 ^ 4) : (textBytes value).length < 256 ^ 4 :=
  Nat.lt_of_le_of_lt (validateToken_eq_ok_iff.mp hvalid).1.2 hmax

theorem keyFits_of_validate {key : IdentityKey}
    (hvalid : key.validate crypto = .ok ()) : KeyFits key := by
  simp only [IdentityKey.validate, validateKeyMaterial, then_eq_ok,
    require_eq_ok_iff] at hvalid
  obtain ⟨⟨htoken, hpublic, _⟩, _⟩ := hvalid
  exact ⟨token_fits htoken (by decide),
    Nat.lt_of_le_of_lt hpublic.2 (by decide)⟩

theorem endpointFits_of_validate {endpoint : IdentityEndpoint}
    (hvalid : validateEndpoint endpoint = .ok ()) :
    EndpointFits endpoint := by
  simp only [validateEndpoint, then_eq_ok] at hvalid
  exact ⟨token_fits hvalid.1 (by decide),
    Nat.lt_of_le_of_lt (validateText_length hvalid.2) (by decide)⟩

theorem statusFits_of_validate {record : IdentityRecord}
    (hvalid : record.validateStatus = .ok ()) : StatusFits record.status := by
  intro revokedAt reason hstatus
  rw [validateStatus, hstatus] at hvalid
  simp only [then_eq_ok] at hvalid
  exact Nat.lt_of_le_of_lt (validateText_length hvalid.2) (by decide)

theorem BodyValid.fits {record : IdentityRecord}
    (hvalid : BodyValid crypto record) : BodyFits record where
  profile := token_fits hvalid.profile (by decide)
  status := statusFits_of_validate hvalid.status
  keys := by
    rw [List.length_mergeSort]
    refine ⟨Nat.lt_of_le_of_lt hvalid.keyCount.2 (by decide), ?_⟩
    intro key hkey
    exact keyFits_of_validate (hvalid.keys key (List.mem_mergeSort.mp hkey))
  endpoints := by
    rw [List.length_mergeSort]
    refine ⟨Nat.lt_of_le_of_lt hvalid.endpointCount (by decide), ?_⟩
    intro endpoint hendpoint
    exact endpointFits_of_validate
      (hvalid.endpoints endpoint (List.mem_mergeSort.mp hendpoint))
  capabilities := by
    rw [List.length_mergeSort]
    refine ⟨Nat.lt_of_le_of_lt hvalid.capabilityCount (by decide), ?_⟩
    intro capability hcapability
    exact token_fits (hvalid.capabilities capability
      (List.mem_mergeSort.mp hcapability)) (by decide)

/-- Sorted lists that agree come from lists of the same items. -/
theorem perm_of_sorted_eq {α : Type} {le : α → α → Bool}
    {left right : List α} (heq : left.mergeSort le = right.mergeSort le) :
    left.Perm right := by
  have hright := List.mergeSort_perm right le
  rw [← heq] at hright
  exact (List.mergeSort_perm left le).symm.trans hright

/-- The payload determines everything but the order of the lists, also with
something behind it. -/
theorem payload_append_inj {left right : IdentityRecord}
    {restLeft restRight : Bytes} (hleft : BodyFits left)
    (hright : BodyFits right)
    (heq : left.payloadBytes ++ restLeft = right.payloadBytes ++ restRight) :
    SameBody left right ∧ restLeft = restRight := by
  have hparts := (((((((((((determines_const BodyFits recordDomain).append
    (determines_u16.part version (fun _ _ => trivial))).append
    (determines_hash.part subject (fun _ _ => trivial))).append
    (determines_string.part signatureProfile
      (fun _ hfits => hfits.profile))).append
    (determines_u64.part sequence (fun _ _ => trivial))).append
    (determines_u64.part issuedAt (fun _ _ => trivial))).append
    (determines_u64.part expiresAt
      (fun _ _ => trivial))).append
    (determines_previous.part previousRecord
      (fun _ _ => trivial))).append
    (determines_status.part status
      (fun _ hfits => hfits.status))).append
    ((determines_counted 4 determines_key).part
      (fun record => record.keys.mergeSort IdentityKey.le)
      (fun _ hfits => hfits.keys))).append
    ((determines_counted 4 determines_endpoint).part
      (fun record => record.endpoints.mergeSort IdentityEndpoint.le)
      (fun _ hfits => hfits.endpoints))).append
    ((determines_counted 4 determines_string).part
      (fun record => record.capabilities.mergeSort capabilityLe)
      (fun _ hfits => hfits.capabilities))
  obtain ⟨hviews, hrest⟩ := hparts hleft hright heq
  simp only [id, Prod.mk.injEq] at hviews
  obtain ⟨⟨⟨⟨⟨⟨⟨⟨⟨⟨⟨_, hversion⟩, hsubject⟩, hprofile⟩, hsequence⟩,
    hissued⟩, hexpires⟩, hprevious⟩, hstatus⟩, hkeys⟩, hendpoints⟩,
    hcapabilities⟩ := hviews
  exact ⟨⟨hversion, hsubject, hprofile, hsequence, hissued, hexpires,
    hprevious, hstatus, perm_of_sorted_eq hkeys,
    perm_of_sorted_eq hendpoints, perm_of_sorted_eq hcapabilities⟩, hrest⟩

theorem sameBody_of_payload {left right : IdentityRecord}
    (hleft : BodyValid crypto left) (hright : BodyValid crypto right)
    (heq : left.payloadBytes = right.payloadBytes) : SameBody left right := by
  have hnil : left.payloadBytes ++ [] = right.payloadBytes ++ [] := by
    rw [heq]
  exact (payload_append_inj hleft.fits hright.fits hnil).1

/-- Equal but for the order of all four lists. -/
def Reordered (left right : IdentityRecord) : Prop :=
  SameBody left right ∧ left.signatures.Perm right.signatures

theorem SameBody.refl (record : IdentityRecord) : SameBody record record :=
  ⟨rfl, rfl, rfl, rfl, rfl, rfl, rfl, rfl, .refl _, .refl _, .refl _⟩

/-- Where one item at most is looked for, the order does not matter. -/
theorem find?_eq_of_perm {α : Type} {accepts : α → Bool} {left right : List α}
    (hperm : left.Perm right)
    (hunique : ∀ a ∈ left, ∀ b ∈ left, accepts a = true → accepts b = true →
      a = b) : left.find? accepts = right.find? accepts := by
  cases hright : right.find? accepts with
  | none =>
      rw [List.find?_eq_none] at hright ⊢
      intro item hitem
      exact hright item (hperm.mem_iff.mp hitem)
  | some found =>
      have haccepts := List.find?_some hright
      have hmem := hperm.mem_iff.mpr (List.mem_of_find?_eq_some hright)
      obtain ⟨other, hother⟩ := Option.isSome_iff_exists.mp
        (List.find?_isSome.mpr ⟨found, hmem, haccepts⟩)
      rw [hother, hunique other (List.mem_of_find?_eq_some hother) found hmem
        (List.find?_some hother) haccepts]

theorem eq_of_filter_length_one {α : Type} {accepts : α → Bool}
    {items : List α} (hone : (items.filter accepts).length = 1) {a b : α}
    (ha : a ∈ items) (hb : b ∈ items) (hacceptsA : accepts a = true)
    (hacceptsB : accepts b = true) : a = b := by
  obtain ⟨only, honly⟩ := List.length_eq_one_iff.mp hone
  have hmemA := List.mem_filter.mpr ⟨ha, hacceptsA⟩
  have hmemB := List.mem_filter.mpr ⟨hb, hacceptsB⟩
  rw [honly, List.mem_singleton] at hmemA hmemB
  rw [hmemA, hmemB]

section Reordering

variable {left right : IdentityRecord}

theorem rootKey_eq_of_sameBody (hleft : BodyValid crypto left)
    (hsame : SameBody left right) : left.rootKey = right.rootKey :=
  find?_eq_of_perm hsame.keys fun _ ha _ hb =>
    eq_of_filter_length_one hleft.root ha hb

theorem signatureKey_eq_of_sameBody (hleft : BodyValid crypto left)
    (hsame : SameBody left right) (signature : RecordSignature) :
    left.signatureKey signature = right.signatureKey signature := by
  rw [signatureKey, signatureKey,
    find?_eq_of_perm hsame.keys]
  intro a ha b hb haccepts hother
  have hids := (of_decide_eq_true haccepts).trans
    (of_decide_eq_true hother).symm
  exact List.inj_on_of_nodup_map hleft.keyIds ha hb hids

theorem BodyValid.of_sameBody (hleft : BodyValid crypto left)
    (hsame : SameBody left right) : BodyValid crypto right where
  version := hsame.version ▸ hleft.version
  sequence := hsame.sequence ▸ hleft.sequence
  initial := hsame.sequence ▸ hsame.previous ▸ hleft.initial
  linked := hsame.sequence ▸ hsame.previous ▸ hleft.linked
  issued := hsame.issued ▸ hsame.expires ▸ hleft.issued
  lifetime := hsame.issued ▸ hsame.expires ▸ hleft.lifetime
  profile := hsame.profile ▸ hleft.profile
  keyCount := by
    have hlength := hsame.keys.length_eq
    refine ⟨?_, hlength ▸ hleft.keyCount.2⟩
    intro hnil
    rw [hnil, List.length_nil, List.length_eq_zero_iff] at hlength
    exact hleft.keyCount.1 hlength
  keys key hkey := hleft.keys key (hsame.keys.mem_iff.mpr hkey)
  keyIds := (hsame.keys.map _).nodup_iff.mp hleft.keyIds
  root := (hsame.keys.filter _).length_eq ▸ hleft.root
  subject := by
    have hsubject := hleft.subject
    simp only [validateSubjectBinding,
      rootKey_eq_of_sameBody hleft hsame, hsame.subject] at hsubject ⊢
    exact hsubject
  endpointCount := hsame.endpoints.length_eq ▸ hleft.endpointCount
  endpoints endpoint hendpoint :=
    hleft.endpoints endpoint (hsame.endpoints.mem_iff.mpr hendpoint)
  endpointIds := (hsame.endpoints.map _).nodup_iff.mp hleft.endpointIds
  capabilityCount := hsame.capabilities.length_eq ▸ hleft.capabilityCount
  capabilities capability hcapability :=
    hleft.capabilities capability
      (hsame.capabilities.mem_iff.mpr hcapability)
  capabilityIds := hsame.capabilities.nodup_iff.mp hleft.capabilityIds
  status := by
    have hstatus := hleft.status
    simp only [validateStatus, hsame.status, hsame.issued,
      hsame.expires] at hstatus ⊢
    exact hstatus

theorem SignaturesValid.of_reordered (hbody : BodyValid crypto left)
    (hleft : SignaturesValid left) (hsame : Reordered left right) :
    SignaturesValid right where
  nonempty hnil := by
    have hperm := hsame.2
    rw [hnil] at hperm
    exact hleft.nonempty hperm.eq_nil
  root := by
    obtain ⟨root, hroot, signature, hsignature, hid⟩ := hleft.root
    exact ⟨root, rootKey_eq_of_sameBody hbody hsame.1 ▸ hroot, signature,
      hsame.2.mem_iff.mp hsignature, hid⟩
  shapes signature hsignature :=
    hleft.shapes signature (hsame.2.mem_iff.mpr hsignature)
  keys signature hsignature := by
    have hkey := hleft.keys signature (hsame.2.mem_iff.mpr hsignature)
    rw [validateSignatureKey,
      signatureKey_eq_of_sameBody hbody hsame.1] at hkey
    exact hkey
  ids := (hsame.2.map _).nodup_iff.mp hleft.ids

end Reordering

/-- What verification establishes. -/
structure Verified (crypto : RecordCrypto) (policy : VerificationPolicy)
    (record : IdentityRecord) : Prop where
  skew : policy.clockSkewSecs.toNat ≤ maxClockSkewSecs
  body : BodyValid crypto record
  signatures : SignaturesValid record
  expected : ∀ expected ∈ policy.expectedSubject, expected = record.subject
  issued : record.issuedAt.toNat ≤ saturatingAdd policy.nowSecs.toNat
    policy.clockSkewSecs.toNat
  expires : policy.nowSecs.toNat ≤ saturatingAdd record.expiresAt.toNat
    policy.clockSkewSecs.toNat
  profile : record.signatureProfile = profileEd25519
  signed : ∀ signature ∈ record.signatures, record.verifySignature crypto
    policy record.payloadBytes signature = .ok ()
  classical : policy.requirePqcSignature = false

theorem canonicalPayload_eq_ok_iff {record : IdentityRecord}
    {payload : Bytes} : record.canonicalPayload crypto = .ok payload ↔
      BodyValid crypto record ∧ record.payloadBytes = payload := by
  simp only [canonicalPayload, then_eq_ok, validateBody_eq_ok_iff,
    pure_eq_ok]

theorem verify_eq_ok_iff {policy : VerificationPolicy}
    {record : IdentityRecord} {result : VerificationResult} :
    record.verify crypto policy = .ok result ↔
      Verified crypto policy record ∧
        result = ⟨record.subject, false⟩ := by
  simp only [verify, bind_eq_ok, require_eq_ok_iff,
    validateStructure_eq_ok_iff, canonicalPayload_eq_ok_iff,
    checkEach_eq_ok_iff, exists_const, pure_eq_ok]
  constructor
  · rintro ⟨hskew, ⟨hbody, hsignatures⟩, _, _, hexpected, hissued, hexpires,
      hprofile, payload, ⟨_, rfl⟩, hsigned, _, hclassical, rfl⟩
    exact ⟨⟨hskew, hbody, hsignatures, hexpected, hissued, hexpires,
      hprofile, hsigned, hclassical⟩, rfl⟩
  · rintro ⟨hverified, rfl⟩
    exact ⟨hverified.skew, ⟨hverified.body, hverified.signatures⟩,
      (), hverified.body.subject, hverified.expected, hverified.issued,
      hverified.expires, hverified.profile, _, ⟨hverified.body, rfl⟩,
      hverified.signed, hverified.signatures.nonempty, hverified.classical,
      rfl⟩

theorem Verified.of_reordered {policy : VerificationPolicy}
    {left right : IdentityRecord} (hleft : Verified crypto policy left)
    (hsame : Reordered left right) : Verified crypto policy right where
  skew := hleft.skew
  body := hleft.body.of_sameBody hsame.1
  signatures := hleft.signatures.of_reordered hleft.body hsame
  expected := hsame.1.subject ▸ hleft.expected
  issued := hsame.1.issued ▸ hleft.issued
  expires := hsame.1.expires ▸ hleft.expires
  profile := hsame.1.profile ▸ hleft.profile
  signed signature hsignature := by
    have hsigned := hleft.signed signature (hsame.2.mem_iff.mpr hsignature)
    rw [payloadBytes_eq_of_sameBody hleft.body hsame.1,
      verifySignature,
      signatureKey_eq_of_sameBody hleft.body hsame.1, hsame.1.issued]
      at hsigned
    exact hsigned
  classical := hleft.classical

/-- Each signature names another key, so there are few of them. -/
theorem signatures_length_le {record : IdentityRecord}
    (hsignatures : SignaturesValid record) :
    record.signatures.length ≤ record.keys.length := by
  have hsub : record.signatures.map (fun signature =>
      (signature.keyId, signature.algorithm)) ⊆
      record.keys.map fun key => (key.keyId, key.algorithm) := by
    intro label hlabel
    obtain ⟨signature, hsignature, rfl⟩ := List.mem_map.mp hlabel
    have hkey := hsignatures.keys signature hsignature
    simp only [validateSignatureKey,
      signatureKey, bind_eq_ok, valueOr_eq_ok_iff,
      require_eq_ok_iff] at hkey
    obtain ⟨key, hfind, halgorithm, _⟩ := hkey
    have haccepts := List.find?_some hfind
    have hid : key.keyId = signature.keyId := of_decide_eq_true haccepts
    rw [← halgorithm, ← hid]
    exact List.mem_map_of_mem (List.mem_of_find?_eq_some hfind)
  have hle := (List.subperm_of_subset hsignatures.ids hsub).length_le
  simpa using hle

theorem signatureFits_of_shape {signature : RecordSignature}
    (hshape : validateSignatureShape signature = .ok ()) :
    SignatureFits signature := by
  simp only [validateSignatureShape, then_eq_ok,
    require_eq_ok_iff] at hshape
  exact ⟨token_fits hshape.2 (by decide),
    Nat.lt_of_le_of_lt hshape.1.2 (by decide)⟩

/-- The bytes hashed for a record that passes its checks. -/
def hashBytes (record : IdentityRecord) : Bytes :=
  recordDomain ++ appendBytes record.payloadBytes ++
    appendList RecordSignature.canonical
      (record.signatures.mergeSort RecordSignature.le)

theorem hashInput_eq_ok_iff {record : IdentityRecord} {input : Bytes} :
    record.hashInput crypto = .ok input ↔
      (BodyValid crypto record ∧ SignaturesValid record) ∧
        hashBytes record = input := by
  simp only [hashInput, bind_eq_ok,
    validateStructure_eq_ok_iff, canonicalPayload_eq_ok_iff, exists_const,
    pure_eq_ok]
  constructor
  · rintro ⟨hvalid, payload, ⟨_, rfl⟩, rfl⟩
    exact ⟨hvalid, rfl⟩
  · rintro ⟨hvalid, rfl⟩
    exact ⟨hvalid, _, ⟨hvalid.1, rfl⟩, rfl⟩

theorem hashBytes_eq_of_reordered {left right : IdentityRecord}
    (hleft : BodyValid crypto left) (hsame : Reordered left right) :
    hashBytes left = hashBytes right := by
  have hsignatures := mergeSort_eq_of_perm totalPreorder_signature hsame.2
    fun _ _ _ _ => signature_le_antisymm
  rw [hashBytes, hashBytes, payloadBytes_eq_of_sameBody hleft hsame.1,
    hsignatures]

/-- The signatures behind the payload are read off as they were sorted. -/
theorem reordered_of_hashBytes {left right : IdentityRecord}
    (hleft : BodyValid crypto left) (hsignedLeft : SignaturesValid left)
    (hright : BodyValid crypto right) (hsignedRight : SignaturesValid right)
    (heq : hashBytes left = hashBytes right) : Reordered left right := by
  simp only [hashBytes, appendBytes, List.append_assoc] at heq
  have hprefixed := List.append_cancel_left heq
  have hpayload := (List.append_inj hprefixed (by simp)).2
  obtain ⟨hbody, hlists⟩ :=
    payload_append_inj hleft.fits hright.fits hpayload
  have hfits : ∀ record : IdentityRecord, BodyValid crypto record →
      SignaturesValid record →
        (record.signatures.mergeSort RecordSignature.le).length < 256 ^ 4 ∧
          ∀ signature ∈ record.signatures.mergeSort RecordSignature.le,
            SignatureFits signature := by
    intro record hvalid hsigned
    have hcount := Nat.le_trans (signatures_length_le hsigned)
      hvalid.keyCount.2
    rw [List.length_mergeSort]
    refine ⟨Nat.lt_of_le_of_lt hcount (by decide), ?_⟩
    intro signature hsignature
    exact signatureFits_of_shape
      (hsigned.shapes signature (List.mem_mergeSort.mp hsignature))
  have hsorted := (determines_counted 4 determines_signature).eq
    (hfits left hleft hsignedLeft) (hfits right hright hsignedRight) hlists
  exact ⟨hbody, perm_of_sorted_eq hsorted⟩

/-- The payload stands for the record up to the order of its lists, the hashed
bytes for the signatures too, and verification does not see the order. -/
theorem canonical_bytes_identify_records (crypto : RecordCrypto) :
    (∀ left right : IdentityRecord,
      left.validateStructure crypto = .ok () →
      right.validateStructure crypto = .ok () →
        ((∃ payload, left.canonicalPayload crypto = .ok payload ∧
            right.canonicalPayload crypto = .ok payload) ↔
          SameBody left right) ∧
        ((∃ input, left.hashInput crypto = .ok input ∧
            right.hashInput crypto = .ok input) ↔
          SameBody left right ∧ left.signatures.Perm right.signatures)) ∧
    ∀ (policy : VerificationPolicy) (record : IdentityRecord),
      (∃ result, record.verify crypto policy = .ok result) ↔
        ∀ other, Reordered record other →
          ∃ result, other.verify crypto policy = .ok result := by
  constructor
  · intro left right hvalidLeft hvalidRight
    obtain ⟨hleft, hsignedLeft⟩ := validateStructure_eq_ok_iff.mp hvalidLeft
    obtain ⟨hright, hsignedRight⟩ :=
      validateStructure_eq_ok_iff.mp hvalidRight
    simp only [canonicalPayload_eq_ok_iff, hashInput_eq_ok_iff]
    refine ⟨⟨?_, ?_⟩, ?_, ?_⟩
    · rintro ⟨payload, ⟨_, hone⟩, _, hother⟩
      exact sameBody_of_payload hleft hright (hone.trans hother.symm)
    · intro hsame
      exact ⟨_, ⟨hleft, payloadBytes_eq_of_sameBody hleft hsame⟩, hright,
        rfl⟩
    · rintro ⟨input, ⟨_, hone⟩, _, hother⟩
      exact reordered_of_hashBytes hleft hsignedLeft hright hsignedRight
        (hone.trans hother.symm)
    · intro hsame
      exact ⟨_, ⟨⟨hleft, hsignedLeft⟩, hashBytes_eq_of_reordered hleft hsame⟩,
        ⟨hright, hsignedRight⟩, rfl⟩
  · intro policy record
    constructor
    · rintro ⟨result, hresult⟩ other hsame
      have hverified := (verify_eq_ok_iff.mp hresult).1.of_reordered hsame
      exact ⟨_, verify_eq_ok_iff.mpr ⟨hverified, rfl⟩⟩
    · intro hall
      exact hall record ⟨.refl record, .refl _⟩

namespace IdentityWitness

def word (number : Nat) : Bytes := bigEndian 32 number

def hash (number : Nat) : Hash32 := ⟨word number, by simp [word]⟩

def rootPublic : Bytes :=
  word 0x8a88e3dd7409f195fd52db2d3cba5d72ca6709bf1d94121bf3748801b40f6f5c

def recoveryPublic : Bytes :=
  word 0x8139770ea87d175f56a35466c34c7ecccb8d8a91b4ee37a25df60f5b8fc9b394

def bindingPublic : Bytes :=
  word 0x8520f0098930a754748b7ddcb43ef75a0dbf3a0d26381af4eba4a98eaa9b4e6a

def subject : Hash32 := hash
  0x3a9b3aaf127f3284fecef1cd28159c8f706ea11d14a2aaa6add7080a53b3366d

def rootKey : IdentityKey :=
  ⟨hash 0x69297a0d4a2ce28cb612f3ae42bef009fdb5424ff151bf48a9c59696e57ad139,
    .rootSigning, "ed25519", rootPublic, 1000, 5000, none⟩

def recoveryKey : IdentityKey :=
  ⟨hash 0xee13a5773edb291c9bfb7ad2c029627cd1f371e34b3b712ed0e74fbe4de50add,
    .recoverySigning, "ed25519", recoveryPublic, 1000, 5000, none⟩

def bindingKey : IdentityKey :=
  ⟨hash 0xfa9c24a6b00fdeca1f87054e40a664184467d81a45d11c63854e57a2f809577d,
    .identityBinding, "x25519", bindingPublic, 1000, 5000, none⟩

/-- The records of one subject; their lists are in canonical order. -/
def record (sequence : UInt64) (previous : Option Hash32)
    (signatures : List RecordSignature) : IdentityRecord :=
  ⟨1, subject, "ed25519", sequence, 1000 + sequence, 2000, previous, .active,
    [rootKey, recoveryKey, bindingKey], [⟨"tcp", "192.0.2.1:7000", 0⟩],
    ["relay"], signatures⟩

def rootSignature (first second : Nat) : RecordSignature :=
  ⟨rootKey.keyId, "ed25519", word first ++ word second⟩

def recoverySignature (first second : Nat) : RecordSignature :=
  ⟨recoveryKey.keyId, "ed25519", word first ++ word second⟩

def firstRoot : RecordSignature := rootSignature
  0x93cb83d494df23b684ab587f669e8d42c1dc1916d5821bddec24b787e720d70c
  0xa882e0b621fe6e22f41337b4a84dbfef669979db0704f78178307fd7547f250c

def firstRecovery : RecordSignature := recoverySignature
  0x708d8be8d43e877cf5d64f28fde688a7f1f7c6e1bc79828f5f803d6d80e410df
  0xa33adb6f709f6a94b1cea247f3a15da77e24aff81747fec0c4ac7bcce360d60f

/-- The first record of the subject. -/
def first : IdentityRecord := record 1 none [firstRoot, firstRecovery]

/-- A copy of it that keeps the signature by the root key only. -/
def firstStripped : IdentityRecord := record 1 none [firstRoot]

/-- A copy of it with the keys and signatures the other way round. -/
def firstReversed : IdentityRecord :=
  { first with keys := first.keys.reverse,
               signatures := first.signatures.reverse }

/-- The payload of the records above, without the sorting. -/
def payload (sequence : UInt64) (previous : Option Hash32) : Bytes :=
  recordDomain ++ bigEndian 2 1 ++ subject.val ++ appendString "ed25519" ++
    bigEndian 8 sequence.toNat ++ bigEndian 8 (1000 + sequence).toNat ++
    bigEndian 8 2000 ++ FieldCode.optional FixedBytes.val previous ++ [0] ++
    appendList IdentityKey.canonical [rootKey, recoveryKey, bindingKey] ++
    appendList IdentityEndpoint.canonical [⟨"tcp", "192.0.2.1:7000", 0⟩] ++
    appendList appendString ["relay"]

def hashed (sequence : UInt64) (previous : Option Hash32)
    (signatures : List RecordSignature) : Bytes :=
  recordDomain ++ appendBytes (payload sequence previous) ++
    appendList RecordSignature.canonical signatures

theorem payloadBytes_record (sequence : UInt64) (previous : Option Hash32)
    (signatures : List RecordSignature) :
    (record sequence previous signatures).payloadBytes =
      payload sequence previous := by
  have hkeys : [rootKey, recoveryKey, bindingKey].Pairwise
      (fun left right => left.le right = true) := by decide
  simp only [record, IdentityRecord.payloadBytes,
    List.mergeSort_of_pairwise hkeys, List.mergeSort_singleton]
  rfl

theorem hashBytes_record (sequence : UInt64) (previous : Option Hash32)
    {signatures : List RecordSignature} (hsorted : signatures.Pairwise
      fun left right => left.le right = true) :
    hashBytes (record sequence previous signatures) =
      hashed sequence previous signatures := by
  rw [hashBytes, payloadBytes_record, hashed]
  simp only [record, List.mergeSort_of_pairwise hsorted]

/-- The values of SHA-256 and Ed25519 on the inputs that occur. -/
def cryptoOf (hashes : List (Bytes × Hash32))
    (signed : List (Bytes × Bytes × Bytes)) : RecordCrypto where
  sha256 input := (List.lookup input (hashes ++ [
    (identityIdDomain ++ appendBytes rootPublic, subject),
    (keyIdDomain ++ [KeyRole.rootSigning.code] ++ appendString "ed25519" ++
      appendBytes rootPublic, rootKey.keyId),
    (keyIdDomain ++ [KeyRole.identityBinding.code] ++ appendString "x25519" ++
      appendBytes bindingPublic, bindingKey.keyId),
    (keyIdDomain ++ [KeyRole.recoverySigning.code] ++
      appendString "ed25519" ++ appendBytes recoveryPublic,
      recoveryKey.keyId)])).getD (hash 0)
  ed25519Verify key message signature :=
    decide ((key, message, signature) ∈ signed)

def firstHash : Hash32 := hash
  0xc7b477fb95e7e6fb772a3d378e2a967b674852801adaf2d07f3956832ac241c2

def strippedHash : Hash32 := hash
  0xe80349816d442adefc34f4cd91923c08d850fb778a780bf9e5dbf66a4f8bf3a6

def firstCrypto : RecordCrypto := cryptoOf
  [(hashed 1 none [firstRoot, firstRecovery], firstHash),
    (hashed 1 none [firstRoot], strippedHash)]
  [(rootPublic, payload 1 none, firstRoot.signature),
    (recoveryPublic, payload 1 none, firstRecovery.signature)]

def policy : VerificationPolicy := ⟨1500, 300, none, false⟩

theorem verified_first : Verified firstCrypto policy first := by
  obtain ⟨hbody, hsigned⟩ := validateStructure_eq_ok_iff.mp
    (by decide : first.validateStructure firstCrypto = .ok ())
  refine ⟨by decide, hbody, hsigned, by decide, by decide, by decide, rfl, ?_,
    rfl⟩
  rw [first, payloadBytes_record]
  decide +kernel

theorem canonical_bytes_identify_records_first :
    (∃ payload, first.canonicalPayload firstCrypto = .ok payload ∧
      firstReversed.canonicalPayload firstCrypto = .ok payload) ∧
    (¬ ∃ input, first.hashInput firstCrypto = .ok input ∧
      firstStripped.hashInput firstCrypto = .ok input) ∧
    ∃ result, firstReversed.verify firstCrypto policy = .ok result := by
  have hfirst : first.validateStructure firstCrypto = .ok () :=
    validateStructure_eq_ok_iff.mpr
      ⟨verified_first.body, verified_first.signatures⟩
  have hreversed : Reordered first firstReversed :=
    ⟨⟨rfl, rfl, rfl, rfl, rfl, rfl, rfl, rfl, (List.reverse_perm _).symm,
      .refl _, .refl _⟩, (List.reverse_perm _).symm⟩
  obtain ⟨hidentify, hverify⟩ := canonical_bytes_identify_records firstCrypto
  refine ⟨?_, ?_, ?_⟩
  · exact ((hidentify first firstReversed hfirst
      (by decide)).1).mpr hreversed.1
  · intro hsame
    have hperm := (((hidentify first firstStripped hfirst
      (by decide)).2).mp hsame).2
    exact absurd hperm.length_eq (by decide)
  · exact (hverify policy first).mp
      ⟨_, verify_eq_ok_iff.mpr ⟨verified_first, rfl⟩⟩ firstReversed hreversed

end IdentityWitness

end Shph.Identity
