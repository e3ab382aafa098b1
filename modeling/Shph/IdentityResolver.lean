/-
The resolver of identity records.  It asks untrusted providers for records,
keeps those that verify, and accepts the highest sequence only when it follows
what it accepted before.
-/
import Shph.IdentityCanonical
import Shph.Library.KeyTable

namespace Shph.Identity

open ByteCodec Checked StatefulRun KeyTable
def discoveryPluginApiVersion : UInt16 := 1

def maxProviderRecords : Nat := 1024

def maxDiscoveryProviders : Nat := 64

def maxTotalCandidates : Nat := 4096

def maxPluginCapabilities : Nat := 16

structure DiscoveryPluginDescriptor where
  apiVersion : UInt16
  pluginId : String
  providerKind : String
  capabilities : List String
deriving Repr, DecidableEq

def DiscoveryPluginDescriptor.validate
    (descriptor : DiscoveryPluginDescriptor) : Except IdentityError Unit := do
  require (descriptor.apiVersion = discoveryPluginApiVersion)
    (.invalidRecord ("unsupported discovery plugin API version " ++
      toString descriptor.apiVersion.toNat))
  validateToken "plugin id" descriptor.pluginId maxStringBytes
  validateToken "provider kind" descriptor.providerKind maxStringBytes
  require (descriptor.capabilities.length ≤ maxPluginCapabilities)
    (.invalidRecord ("plugin exposes more than " ++
      toString maxPluginCapabilities ++ " capabilities"))
  checkDistinct (validateToken "plugin capability" · maxStringBytes)
    (fun _ => .ok ()) id (.invalidRecord
      "plugin descriptor contains duplicate capabilities") []
    descriptor.capabilities

/-- What a provider does when it is asked.  A call without a result is one
that panics. -/
structure DiscoveryProvider where
  describe : Option (String × DiscoveryPluginDescriptor)
  fetch : Hash32 → Option (Except IdentityError (List IdentityRecord))

structure Gathered where
  candidates : List IdentityRecord
  providerFailures : Nat
deriving Repr, DecidableEq

namespace Gathered

def failed (gathered : Gathered) : Gathered :=
  { gathered with providerFailures := gathered.providerFailures + 1 }

/-- The records of one provider, within the limits. -/
def extend (gathered : Gathered) (records : List IdentityRecord) : Gathered :=
  if maxProviderRecords < records.length then gathered.failed
  else if maxTotalCandidates <
      saturatingAdd gathered.candidates.length records.length then
    gathered.failed
  else { gathered with candidates := gathered.candidates ++ records }

def consult (subject : Hash32) (gathered : Gathered)
    (provider : DiscoveryProvider) : Gathered :=
  match provider.describe with
  | none => gathered.failed
  | some (providerId, descriptor) =>
      if descriptor.validate ≠ .ok () ∨ descriptor.pluginId ≠ providerId then
        gathered.failed
      else
        match provider.fetch subject with
        | some (.ok records) => gathered.extend records
        | some (.error _) => gathered.failed
        | none => gathered.failed

end Gathered

def gather (subject : Hash32) (providers : List DiscoveryProvider) :
    Gathered :=
  providers.foldl (Gathered.consult subject) ⟨[], 0⟩

/-- The records of one sequence by their hash; there is at least one. -/
structure SameSequence where
  records : KeyTable Hash32 IdentityRecord
  nonempty : records.entries ≠ []

namespace SameSequence

def single (hash : Hash32) (record : IdentityRecord) : SameSequence :=
  ⟨⟨[(hash, record)], List.nodup_singleton hash⟩, by simp⟩

/-- A hash that is there keeps its record. -/
def add (group : SameSequence) (hash : Hash32) (record : IdentityRecord) :
    SameSequence :=
  if hnew : hash ∈ group.records.entries.map Prod.fst then group
  else
    ⟨group.records.set hash record, by
      rw [entries_set_of_new hnew]
      simp⟩

def first (group : SameSequence) : Hash32 × IdentityRecord :=
  group.records.entries.head group.nonempty

end SameSequence

structure Sieved where
  validBySequence : KeyTable UInt64 SameSequence
  invalidCandidates : Nat

def Sieved.insert (sieved : Sieved) (hash : Hash32)
    (record : IdentityRecord) : Sieved :=
  let group :=
    match sieved.validBySequence.get record.sequence with
    | some group => group.add hash record
    | none => .single hash record
  { sieved with
    validBySequence := sieved.validBySequence.set record.sequence group }

def Sieved.invalid (sieved : Sieved) : Sieved :=
  { sieved with invalidCandidates := sieved.invalidCandidates + 1 }

/-- The records of the subject that verify, by sequence and hash. -/
def sieve (crypto : RecordCrypto) (subject : Hash32)
    (policy : VerificationPolicy) (sieved : Sieved) :
    List IdentityRecord → Except IdentityError Sieved
  | [] => .ok sieved
  | record :: rest =>
      if record.subject ≠ subject then
        sieve crypto subject policy sieved.invalid rest
      else
        match record.verify crypto policy with
        | .error _ => sieve crypto subject policy sieved.invalid rest
        | .ok _ =>
            match record.recordHash crypto with
            | .error error => .error error
            | .ok hash =>
                sieve crypto subject policy (sieved.insert hash record) rest

/-- The records of the highest sequence. -/
def Sieved.last (sieved : Sieved) : Option (UInt64 × SameSequence) :=
  sieved.validBySequence.entries.argmax fun entry => entry.1.toNat

structure Selected where
  sequence : UInt64
  recordHash : Hash32
  record : IdentityRecord
  invalidCandidates : Nat
deriving Repr, DecidableEq

/-- The only record of the highest sequence. -/
def Sieved.choose (sieved : Sieved) : Except IdentityError Selected :=
  match sieved.last with
  | none => .error .notFound
  | some (sequence, group) =>
      if 1 < group.records.size then .error (.conflict sequence)
      else .ok ⟨sequence, group.first.1, group.first.2,
        sieved.invalidCandidates⟩

/-- The part of a resolution that does not look at what was accepted. -/
def select (crypto : RecordCrypto) (subject : Hash32)
    (providers : List DiscoveryProvider) (policy : VerificationPolicy) :
    Except IdentityError Selected := do
  require (providers.length ≤ maxDiscoveryProviders)
    (.invalidRecord ("resolution requested with more than " ++
      toString maxDiscoveryProviders ++ " providers"))
  require (policy.clockSkewSecs.toNat ≤ maxClockSkewSecs)
    (.invalidRecord "verification clock skew exceeds the safety limit")
  let gathered := gather subject providers
  require (gathered.candidates ≠ [])
    (if providers ≠ [] ∧ gathered.providerFailures = providers.length then
      .providerUnavailable "all configured discovery providers failed"
    else .notFound)
  let sieved ← sieve crypto subject policy ⟨KeyTable.empty, 0⟩
    gathered.candidates
  sieved.choose

structure AcceptedRecord where
  sequence : UInt64
  hash : Hash32
deriving Repr, DecidableEq

structure DiscoveryResolver where
  accepted : KeyTable Hash32 AcceptedRecord

structure Resolution where
  record : IdentityRecord
  recordHash : Hash32
  providersConsulted : Nat
  invalidCandidates : Nat
deriving Repr, DecidableEq

structure ResolveCall where
  subject : Hash32
  providers : List DiscoveryProvider
  policy : VerificationPolicy

namespace DiscoveryResolver

def new : DiscoveryResolver := ⟨KeyTable.empty⟩

def accept (resolver : DiscoveryResolver) (subject : Hash32)
    (selected : Selected) : DiscoveryResolver :=
  ⟨resolver.accepted.set subject ⟨selected.sequence, selected.recordHash⟩⟩

def resolve (crypto : RecordCrypto) (resolver : DiscoveryResolver)
    (call : ResolveCall) : Except IdentityError Resolution × DiscoveryResolver :=
  match select crypto call.subject call.providers call.policy with
  | .error error => (.error error, resolver)
  | .ok selected =>
      let resolution : Resolution := ⟨selected.record, selected.recordHash,
        call.providers.length, selected.invalidCandidates⟩
      match resolver.accepted.get call.subject with
      | some previous =>
          if selected.sequence < previous.sequence then
            (.error .replay, resolver)
          else if selected.sequence = previous.sequence then
            if selected.recordHash = previous.hash then
              (.ok resolution, resolver)
            else (.error (.conflict selected.sequence), resolver)
          else if selected.sequence.toNat ≠
                saturatingAdd previous.sequence.toNat 1 ∨
              selected.record.previousRecord ≠ some previous.hash then
            (.error .replay, resolver)
          else (.ok resolution, resolver.accept call.subject selected)
      | none =>
          if selected.sequence ≠ 1 then (.error .replay, resolver)
          else (.ok resolution, resolver.accept call.subject selected)

end DiscoveryResolver

section Resolving

variable {crypto : RecordCrypto} {subject : Hash32}
  {policy : VerificationPolicy}

theorem recordHash_eq_ok_iff {record : IdentityRecord} {hash : Hash32} :
    record.recordHash crypto = .ok hash ↔
      (BodyValid crypto record ∧ SignaturesValid record) ∧
        crypto.sha256 (hashBytes record) = hash := by
  simp only [IdentityRecord.recordHash, bind_eq_ok, hashInput_eq_ok_iff,
    pure_eq_ok]
  constructor
  · rintro ⟨input, ⟨hvalid, rfl⟩, hhash⟩
    exact ⟨hvalid, hhash⟩
  · rintro ⟨hvalid, hhash⟩
    exact ⟨_, ⟨hvalid, rfl⟩, hhash⟩

/-- A record of the subject that verifies. -/
def ValidFor (crypto : RecordCrypto) (subject : Hash32)
    (policy : VerificationPolicy) (record : IdentityRecord) : Prop :=
  record.subject = subject ∧ Verified crypto policy record

/-- The hash of a record that verifies. -/
def hashOf (crypto : RecordCrypto) (record : IdentityRecord) : Hash32 :=
  crypto.sha256 (hashBytes record)

theorem Verified.recordHash {record : IdentityRecord}
    (hverified : Verified crypto policy record) :
    record.recordHash crypto = .ok (hashOf crypto record) :=
  recordHash_eq_ok_iff.mpr ⟨⟨hverified.body, hverified.signatures⟩, rfl⟩

namespace SameSequence

variable {group : SameSequence} {hash other : Hash32}
  {record found : IdentityRecord}

theorem get_single : (single hash record).records.get other = some found ↔
    other = hash ∧ found = record := by
  rw [get_eq_some_iff]
  simp [single]

theorem get_add (hfound : (group.add hash record).records.get other =
    some found) : group.records.get other = some found ∨
      (other = hash ∧ found = record) := by
  unfold add at hfound
  split at hfound
  · exact .inl hfound
  · by_cases hsame : other = hash
    · subst hsame
      rw [get_set_self, Option.some.injEq] at hfound
      exact .inr ⟨rfl, hfound.symm⟩
    · rw [get_set_of_ne hsame] at hfound
      exact .inl hfound

theorem contains_add_self : ∃ found,
    (group.add hash record).records.get hash = some found := by
  unfold add
  split
  · rename_i hmem
    obtain ⟨⟨label, value⟩, hentry, rfl⟩ := List.mem_map.mp hmem
    exact ⟨value, get_eq_some_iff.mpr hentry⟩
  · exact ⟨record, get_set_self⟩

theorem contains_add (hfound : group.records.get other = some found) :
    (group.add hash record).records.get other = some found := by
  unfold add
  split
  · exact hfound
  · rename_i hnew
    have hne : other ≠ hash := by
      rintro rfl
      exact hnew (List.mem_map_of_mem (get_eq_some_iff.mp hfound))
    rw [get_set_of_ne hne]
    exact hfound

theorem get_first : group.records.get group.first.1 = some group.first.2 :=
  get_eq_some_iff.mpr (List.head_mem group.nonempty)

/-- With one record only, every hash is that of the first. -/
theorem eq_first_of_size (hsize : group.records.size ≤ 1)
    (hfound : group.records.get other = some found) :
    other = group.first.1 := by
  have hmem := get_eq_some_iff.mp hfound
  have hfirst : group.first ∈ group.records.entries :=
    List.head_mem group.nonempty
  rw [KeyTable.size] at hsize
  obtain ⟨only, honly⟩ := List.length_eq_one_iff.mp (Nat.le_antisymm hsize
    (List.length_pos_of_mem hmem))
  rw [honly, List.mem_singleton] at hmem hfirst
  rw [hfirst, ← hmem]

/-- With several records, there is a hash other than the given one. -/
theorem exists_other_of_size (hsize : 1 < group.records.size) (hash : Hash32) :
    ∃ other found, group.records.get other = some found ∧ other ≠ hash := by
  by_contra hnone
  push Not at hnone
  have hall : ∀ label ∈ group.records.entries.map Prod.fst, label = hash := by
    intro label hlabel
    obtain ⟨⟨other, found⟩, hentry, rfl⟩ := List.mem_map.mp hlabel
    exact hnone other found (get_eq_some_iff.mpr hentry)
  have hsub : (group.records.entries.map Prod.fst) ⊆ [hash] := by
    intro label hlabel
    rw [hall label hlabel]
    exact List.mem_singleton_self hash
  have hle := (List.subperm_of_subset group.records.nodup hsub).length_le
  rw [List.length_map, List.length_singleton] at hle
  exact absurd hsize (Nat.not_lt.mpr hle)

end SameSequence

/-- The sieve holds the valid records among those it has seen. -/
structure Sifted (crypto : RecordCrypto) (subject : Hash32)
    (policy : VerificationPolicy) (seen : List IdentityRecord)
    (sieved : Sieved) : Prop where
  sound : ∀ sequence group hash record,
    sieved.validBySequence.get sequence = some group →
    group.records.get hash = some record →
      record ∈ seen ∧ ValidFor crypto subject policy record ∧
        record.sequence = sequence ∧ hashOf crypto record = hash
  complete : ∀ record ∈ seen, ValidFor crypto subject policy record →
    ∃ group found, sieved.validBySequence.get record.sequence = some group ∧
      group.records.get (hashOf crypto record) = some found

theorem Sifted.skip {seen : List IdentityRecord} {sieved : Sieved}
    {record : IdentityRecord} (hsifted : Sifted crypto subject policy seen
      sieved) (hinvalid : ¬ ValidFor crypto subject policy record) :
    Sifted crypto subject policy (seen ++ [record]) sieved.invalid where
  sound sequence group hash found hgroup hfound := by
    obtain ⟨hmem, hrest⟩ := hsifted.sound sequence group hash found hgroup
      hfound
    exact ⟨List.mem_append_left _ hmem, hrest⟩
  complete other hother hvalid := by
    rcases List.mem_append.mp hother with hold | hlast
    · exact hsifted.complete other hold hvalid
    · rw [List.mem_singleton.mp hlast] at hvalid
      exact absurd hvalid hinvalid

theorem Sifted.insert {seen : List IdentityRecord} {sieved : Sieved}
    {record : IdentityRecord} (hsifted : Sifted crypto subject policy seen
      sieved) (hvalid : ValidFor crypto subject policy record) :
    Sifted crypto subject policy (seen ++ [record])
      (sieved.insert (hashOf crypto record) record) where
  sound sequence group hash found hgroup hfound := by
    have hnew : record ∈ seen ++ [record] := by simp
    rw [Sieved.insert] at hgroup
    by_cases hsequence : sequence = record.sequence
    · subst hsequence
      rw [get_set_self, Option.some.injEq] at hgroup
      subst hgroup
      split at hfound
      · rename_i old hold
        rcases SameSequence.get_add hfound with hbefore | ⟨rfl, rfl⟩
        · obtain ⟨hmem, hrest⟩ := hsifted.sound _ old hash found hold hbefore
          exact ⟨List.mem_append_left _ hmem, hrest⟩
        · exact ⟨hnew, hvalid, rfl, rfl⟩
      · obtain ⟨rfl, rfl⟩ := SameSequence.get_single.mp hfound
        exact ⟨hnew, hvalid, rfl, rfl⟩
    · rw [get_set_of_ne hsequence] at hgroup
      obtain ⟨hmem, hrest⟩ := hsifted.sound sequence group hash found hgroup
        hfound
      exact ⟨List.mem_append_left _ hmem, hrest⟩
  complete other hother hvalidOther := by
    rw [Sieved.insert]
    rcases List.mem_append.mp hother with hold | hlast
    · obtain ⟨group, found, hgroup, hfound⟩ :=
        hsifted.complete other hold hvalidOther
      by_cases hsequence : other.sequence = record.sequence
      · rw [hsequence] at hgroup ⊢
        rw [get_set_self, hgroup]
        exact ⟨_, found, rfl, SameSequence.contains_add hfound⟩
      · rw [get_set_of_ne hsequence]
        exact ⟨group, found, hgroup, hfound⟩
    · rw [List.mem_singleton.mp hlast, get_set_self]
      split
      · obtain ⟨found, hfound⟩ := SameSequence.contains_add_self
        exact ⟨_, found, rfl, hfound⟩
      · exact ⟨_, record, rfl, SameSequence.get_single.mpr ⟨rfl, rfl⟩⟩

theorem sieve_cons_of_valid {sieved : Sieved} {record : IdentityRecord}
    (hvalid : ValidFor crypto subject policy record)
    (rest : List IdentityRecord) :
    sieve crypto subject policy sieved (record :: rest) =
      sieve crypto subject policy
        (sieved.insert (hashOf crypto record) record) rest := by
  rw [sieve, if_neg (not_not.mpr hvalid.1),
    verify_eq_ok_iff.mpr ⟨hvalid.2, rfl⟩]
  dsimp only
  rw [hvalid.2.recordHash]

theorem sieve_cons_of_invalid {sieved : Sieved} {record : IdentityRecord}
    (hinvalid : ¬ ValidFor crypto subject policy record)
    (rest : List IdentityRecord) :
    sieve crypto subject policy sieved (record :: rest) =
      sieve crypto subject policy sieved.invalid rest := by
  rw [sieve]
  split
  · rfl
  · rename_i hsubject
    split
    · rfl
    · rename_i hresult
      exact absurd ⟨not_not.mp hsubject, (verify_eq_ok_iff.mp hresult).1⟩
        hinvalid

/-- Records of which none is valid leave the table as it is. -/
theorem sieve_of_invalid {records : List IdentityRecord}
    (hinvalid : ∀ record ∈ records, ¬ ValidFor crypto subject policy record)
    (sieved : Sieved) :
    ∃ skipped, sieve crypto subject policy sieved records =
      .ok { sieved with invalidCandidates := skipped } := by
  induction records generalizing sieved with
  | nil => exact ⟨sieved.invalidCandidates, rfl⟩
  | cons record rest ih =>
      rw [sieve_cons_of_invalid (hinvalid record List.mem_cons_self)]
      exact ih (fun other hother =>
        hinvalid other (List.mem_cons_of_mem _ hother)) sieved.invalid

/-- The sieve gets through and keeps exactly the valid records. -/
theorem sieve_sifted {seen : List IdentityRecord} {sieved : Sieved}
    (hsifted : Sifted crypto subject policy seen sieved)
    (records : List IdentityRecord) :
    ∃ result, sieve crypto subject policy sieved records = .ok result ∧
      Sifted crypto subject policy (seen ++ records) result := by
  induction records generalizing seen sieved with
  | nil => exact ⟨sieved, rfl, by rwa [List.append_nil]⟩
  | cons record rest ih =>
      rw [← List.singleton_append, ← List.append_assoc]
      by_cases hvalid : ValidFor crypto subject policy record
      · rw [List.singleton_append, sieve_cons_of_valid hvalid]
        exact ih (hsifted.insert hvalid)
      · rw [List.singleton_append, sieve_cons_of_invalid hvalid]
        exact ih (hsifted.skip hvalid)

theorem sifted_empty : Sifted crypto subject policy [] ⟨KeyTable.empty, 0⟩ where
  sound sequence group hash record hgroup := by
    simp [KeyTable.get, KeyTable.empty] at hgroup
  complete record hmem := absurd hmem List.not_mem_nil

/-- What the selection of a record among candidates means. -/
structure Chosen (crypto : RecordCrypto) (subject : Hash32)
    (policy : VerificationPolicy) (candidates : List IdentityRecord)
    (selected : Selected) : Prop where
  mem : selected.record ∈ candidates
  valid : ValidFor crypto subject policy selected.record
  sequence : selected.record.sequence = selected.sequence
  hash : hashOf crypto selected.record = selected.recordHash
  highest : ∀ record ∈ candidates, ValidFor crypto subject policy record →
    record.sequence.toNat ≤ selected.sequence.toNat
  unique : ∀ record ∈ candidates, ValidFor crypto subject policy record →
    record.sequence = selected.sequence →
      hashOf crypto record = selected.recordHash

theorem Sieved.last_spec {sieved : Sieved} {sequence : UInt64}
    {group : SameSequence} (hlast : sieved.last = some (sequence, group)) :
    sieved.validBySequence.get sequence = some group ∧
      ∀ other found, sieved.validBySequence.get other = some found →
        other.toNat ≤ sequence.toNat := by
  refine ⟨get_eq_some_iff.mpr (List.argmax_mem hlast), ?_⟩
  intro other found hfound
  have hmem := get_eq_some_iff.mp hfound
  have hle := List.le_of_mem_argmax hmem (Option.mem_def.mpr hlast)
  exact hle

/-- The result of a selection that comes as far as looking at candidates. -/
theorem select_eq {providers : List DiscoveryProvider} {sieved : Sieved}
    (hcount : providers.length ≤ maxDiscoveryProviders)
    (hskew : policy.clockSkewSecs.toNat ≤ maxClockSkewSecs)
    (hsome : (gather subject providers).candidates ≠ [])
    (hsieved : sieve crypto subject policy ⟨KeyTable.empty, 0⟩
      (gather subject providers).candidates = .ok sieved) :
    select crypto subject providers policy = sieved.choose := by
  simp only [select, require, if_pos hcount, if_pos hskew, if_pos hsome,
    hsieved]
  rfl

theorem select_of_invalid {providers : List DiscoveryProvider}
    (hcount : providers.length ≤ maxDiscoveryProviders)
    (hskew : policy.clockSkewSecs.toNat ≤ maxClockSkewSecs)
    (hsome : (gather subject providers).candidates ≠ [])
    (hinvalid : ∀ record ∈ (gather subject providers).candidates,
      ¬ ValidFor crypto subject policy record) :
    select crypto subject providers policy = .error .notFound := by
  obtain ⟨skipped, hsieved⟩ :=
    sieve_of_invalid hinvalid ⟨KeyTable.empty, 0⟩
  rw [select_eq hcount hskew hsome hsieved]
  rfl

theorem sieve_candidates (crypto : RecordCrypto) (subject : Hash32)
    (policy : VerificationPolicy) (candidates : List IdentityRecord) :
    ∃ sieved, sieve crypto subject policy ⟨KeyTable.empty, 0⟩ candidates =
      .ok sieved ∧ Sifted crypto subject policy candidates sieved :=
  sieve_sifted sifted_empty candidates

theorem select_chosen {providers : List DiscoveryProvider}
    {selected : Selected}
    (hselect : select crypto subject providers policy = .ok selected) :
    Chosen crypto subject policy (gather subject providers).candidates
      selected := by
  obtain ⟨sieved, hsieved, hsifted⟩ := sieve_candidates crypto subject policy
    (gather subject providers).candidates
  simp only [select, bind_eq_ok, require_eq_ok_iff, exists_const, hsieved,
    Except.ok.injEq, exists_eq_left'] at hselect
  obtain ⟨_, _, _, hchoose⟩ := hselect
  rw [Sieved.choose] at hchoose
  split at hchoose
  · cases hchoose
  rename_i sequence group hlast
  split at hchoose
  · cases hchoose
  rename_i hsize
  cases hchoose
  obtain ⟨hgroup, hhighest⟩ := Sieved.last_spec hlast
  obtain ⟨hmem, hvalid, hsequence, hhash⟩ := hsifted.sound sequence group _ _
    hgroup SameSequence.get_first
  refine ⟨hmem, hvalid, hsequence, hhash, ?_, ?_⟩
  · intro record hrecord hother
    obtain ⟨found, _, hfound, _⟩ := hsifted.complete record hrecord hother
    exact hhighest record.sequence found hfound
  · intro record hrecord hother hsame
    obtain ⟨found, other, hfound, hget⟩ :=
      hsifted.complete record hrecord hother
    rw [hsame, hgroup, Option.some.injEq] at hfound
    subst hfound
    exact SameSequence.eq_first_of_size (Nat.not_lt.mp hsize) hget

/-- With a valid candidate the selection ends with the highest sequence: in a
conflict when two hashes compete for it, and with its only hash otherwise. -/
theorem select_of_highest {providers : List DiscoveryProvider}
    {top : IdentityRecord}
    (hcount : providers.length ≤ maxDiscoveryProviders)
    (hmem : top ∈ (gather subject providers).candidates)
    (htop : ValidFor crypto subject policy top)
    (hhighest : ∀ record ∈ (gather subject providers).candidates,
      ValidFor crypto subject policy record →
        record.sequence.toNat ≤ top.sequence.toNat) :
    (∃ selected, select crypto subject providers policy = .ok selected ∧
      selected.sequence = top.sequence) ∨
    (select crypto subject providers policy =
        .error (.conflict top.sequence) ∧
      ∃ record ∈ (gather subject providers).candidates,
        ValidFor crypto subject policy record ∧
          record.sequence = top.sequence ∧
            hashOf crypto record ≠ hashOf crypto top) := by
  obtain ⟨sieved, hsieved, hsifted⟩ := sieve_candidates crypto subject policy
    (gather subject providers).candidates
  obtain ⟨topGroup, topFound, htopGroup, _⟩ := hsifted.complete top hmem htop
  rw [select_eq hcount htop.2.skew (List.ne_nil_of_mem hmem) hsieved,
    Sieved.choose]
  cases hlast : sieved.last with
  | none =>
      have hnone := List.argmax_eq_none.mp hlast
      have hentry := get_eq_some_iff.mp htopGroup
      rw [hnone] at hentry
      exact absurd hentry List.not_mem_nil
  | some entry =>
      obtain ⟨sequence, group⟩ := entry
      obtain ⟨hgroup, hmax⟩ := Sieved.last_spec hlast
      obtain ⟨hfirst, hfirstValid, hfirstSequence, _⟩ :=
        hsifted.sound sequence group _ _ hgroup SameSequence.get_first
      have hsequence : sequence = top.sequence := by
        have hle := hhighest _ hfirst hfirstValid
        have hge := hmax top.sequence topGroup htopGroup
        rw [hfirstSequence] at hle
        exact UInt64.toNat_inj.mp (Nat.le_antisymm hle hge)
      subst hsequence
      by_cases hsize : 1 < group.records.size
      · right
        dsimp only
        rw [if_pos hsize]
        refine ⟨rfl, ?_⟩
        obtain ⟨other, record, hrecord, hne⟩ :=
          SameSequence.exists_other_of_size hsize (hashOf crypto top)
        obtain ⟨hrecordMem, hvalid, hsame, hhash⟩ :=
          hsifted.sound _ group other record hgroup hrecord
        refine ⟨record, hrecordMem, hvalid, hsame, ?_⟩
        rw [hhash]
        exact hne
      · left
        dsimp only
        rw [if_neg hsize]
        exact ⟨_, rfl, rfl⟩

/-- How a call may change what is accepted of a subject: not at all, from
nothing to the first sequence, or by one step to a linked record. -/
inductive Progress (result : Except IdentityError Resolution) :
    Option AcceptedRecord → Option AcceptedRecord → Prop where
  | same (accepted : Option AcceptedRecord) : Progress result accepted accepted
  | first (new : AcceptedRecord) (hsequence : new.sequence = 1) :
      Progress result none (some new)
  | next (old new : AcceptedRecord) (resolution : Resolution)
      (hresult : result = .ok resolution)
      (hlinked : resolution.record.previousRecord = some old.hash)
      (hsequence : new.sequence.toNat = old.sequence.toNat + 1) :
      Progress result (some old) (some new)

/-- What one call does. -/
structure SafeCall (crypto : RecordCrypto) (before : DiscoveryResolver)
    (call : ResolveCall) (result : Except IdentityError Resolution)
    (after : DiscoveryResolver) : Prop where
  progress : ∀ subject, Progress result (before.accepted.get subject)
    (after.accepted.get subject)
  others : ∀ subject, subject ≠ call.subject →
    after.accepted.get subject = before.accepted.get subject
  failed : ∀ error, result = .error error → after = before
  returned : ∀ resolution, result = .ok resolution →
    resolution.record.subject = call.subject ∧
    (∃ verified, resolution.record.verify crypto call.policy =
      .ok verified) ∧
    resolution.record.recordHash crypto = .ok resolution.recordHash ∧
    after.accepted.get call.subject =
      some ⟨resolution.record.sequence, resolution.recordHash⟩

/-- A call that leaves the resolver alone and fails. -/
theorem safeCall_error (crypto : RecordCrypto) (before : DiscoveryResolver)
    (call : ResolveCall) (error : IdentityError) :
    SafeCall crypto before call (.error error) before where
  progress subject := .same _
  others _ _ := rfl
  failed _ _ := rfl
  returned _ hok := by cases hok

section Call

variable {before after : DiscoveryResolver} {call : ResolveCall}
  {selected : Selected}

/-- What is returned about a record that was selected. -/
theorem returned_of_select
    (hselect : select crypto call.subject call.providers call.policy =
      .ok selected)
    (haccepted : after.accepted.get call.subject =
      some ⟨selected.sequence, selected.recordHash⟩) :
    selected.record.subject = call.subject ∧
    (∃ verified, selected.record.verify crypto call.policy = .ok verified) ∧
    selected.record.recordHash crypto = .ok selected.recordHash ∧
    after.accepted.get call.subject =
      some ⟨selected.record.sequence, selected.recordHash⟩ := by
  have hchosen := select_chosen hselect
  rw [hchosen.valid.2.recordHash, hchosen.sequence, hchosen.hash]
  exact ⟨hchosen.valid.1, ⟨_, verify_eq_ok_iff.mpr ⟨hchosen.valid.2, rfl⟩⟩,
    rfl, haccepted⟩

/-- A call that accepts the record it selected. -/
theorem safeCall_accept
    (hselect : select crypto call.subject call.providers call.policy =
      .ok selected)
    (hprogress : Progress (.ok ⟨selected.record, selected.recordHash,
        call.providers.length, selected.invalidCandidates⟩)
      (before.accepted.get call.subject)
      (some ⟨selected.sequence, selected.recordHash⟩)) :
    SafeCall crypto before call (.ok ⟨selected.record, selected.recordHash,
        call.providers.length, selected.invalidCandidates⟩)
      (before.accept call.subject selected) where
  progress subject := by
    by_cases hsubject : subject = call.subject
    · rw [hsubject, DiscoveryResolver.accept, get_set_self]
      exact hprogress
    · rw [DiscoveryResolver.accept, get_set_of_ne hsubject]
      exact .same _
  others subject hsubject := by
    rw [DiscoveryResolver.accept, get_set_of_ne hsubject]
  failed _ herror := by cases herror
  returned resolution hresolution := by
    cases hresolution
    exact returned_of_select hselect get_set_self

theorem resolve_safe (crypto : RecordCrypto) (before : DiscoveryResolver)
    (call : ResolveCall) :
    SafeCall crypto before call (before.resolve crypto call).1
      (before.resolve crypto call).2 := by
  rw [DiscoveryResolver.resolve]
  split
  · exact safeCall_error crypto before call _
  rename_i selected hselect
  dsimp only
  split
  · rename_i previous hprevious
    split
    · exact safeCall_error crypto before call _
    · rename_i hnotless
      split
      · rename_i hsequence
        split
        · rename_i hhash
          refine ⟨fun _ => .same _, fun _ _ => rfl, fun _ _ => rfl, ?_⟩
          intro resolution hresolution
          cases hresolution
          apply returned_of_select hselect
          rw [hprevious, hsequence, hhash]
        · exact safeCall_error crypto before call _
      · rename_i hother
        split
        · exact safeCall_error crypto before call _
        · rename_i hnext
          rw [not_or, not_not, not_not] at hnext
          apply safeCall_accept hselect
          rw [hprevious]
          refine .next _ _ _ rfl hnext.2 ?_
          have hgreater : previous.sequence.toNat < selected.sequence.toNat := by
            have hle := Nat.not_lt.mp (UInt64.lt_iff_toNat_lt.not.mp hnotless)
            have hne := UInt64.toNat_inj.not.mpr hother
            omega
          have hequal := hnext.1
          rw [saturatingAdd] at hequal
          dsimp only
          omega
  · rename_i hnone
    split
    · exact safeCall_error crypto before call _
    · rename_i hone
      apply safeCall_accept hselect
      rw [hnone]
      exact .first _ (not_not.mp hone)

end Call

/-- What was accepted of a subject after some more calls. -/
theorem accepted_later {start : DiscoveryResolver} {old : AcceptedRecord}
    (calls : List ResolveCall)
    (hold : start.accepted.get subject = some old) :
    ∃ new, (final (DiscoveryResolver.resolve crypto) start calls).accepted.get
        subject = some new ∧
      old.sequence.toNat ≤ new.sequence.toNat ∧
      new.sequence.toNat ≤ old.sequence.toNat + calls.length ∧
      (new.sequence = old.sequence → new = old) := by
  induction calls generalizing start old with
  | nil => exact ⟨old, hold, Nat.le_refl _, Nat.le_refl _, fun _ => rfl⟩
  | cons call rest ih =>
      rw [final_cons, List.length_cons]
      have hprogress := (resolve_safe crypto start call).progress subject
      rw [hold] at hprogress
      generalize hmiddle :
        (start.resolve crypto call).2.accepted.get subject = middle
          at hprogress
      cases hprogress with
      | same =>
          obtain ⟨new, hnew, hle, hge, hsame⟩ := ih hmiddle
          exact ⟨new, hnew, hle, by omega, hsame⟩
      | next old middle resolution hresult hlinked hsequence =>
          obtain ⟨new, hnew, hle, hge, _⟩ := ih hmiddle
          refine ⟨new, hnew, by omega, by omega, ?_⟩
          intro hsame
          rw [hsame] at hle
          omega

/-- Whatever the providers do, what is accepted of a subject starts at the
first sequence and moves on one linked record at a time. -/
theorem resolver_rollback_safety (crypto : RecordCrypto)
    (calls later : List ResolveCall) (call : ResolveCall) :
    let before := final (DiscoveryResolver.resolve crypto)
      DiscoveryResolver.new calls
    SafeCall crypto before call (before.resolve crypto call).1
        (before.resolve crypto call).2 ∧
      ∀ subject old, before.accepted.get subject = some old →
        ∃ new, (final (DiscoveryResolver.resolve crypto) before
            later).accepted.get subject = some new ∧
          old.sequence.toNat ≤ new.sequence.toNat ∧
          new.sequence.toNat ≤ old.sequence.toNat + later.length ∧
          (new.sequence = old.sequence → new = old) := by
  intro before
  refine ⟨resolve_safe crypto before call, ?_⟩
  intro subject old hold
  exact accepted_later later hold

end Resolving

namespace IdentityWitness

/-- A provider that returns these records whatever it is asked. -/
def providerOf (records : List IdentityRecord) : DiscoveryProvider :=
  ⟨some ("memory", ⟨1, "memory", "unknown", []⟩), fun _ => some (.ok records)⟩

theorem validate_memory : (⟨1, "memory", "unknown", []⟩ :
    DiscoveryPluginDescriptor).validate = .ok () := by decide

theorem consult_providerOf (gathered : Gathered)
    (records : List IdentityRecord) :
    gathered.consult subject (providerOf records) =
      gathered.extend records := by
  simp [Gathered.consult, providerOf, validate_memory]

theorem hashOf_stripped : hashOf firstCrypto firstStripped = strippedHash := by
  rw [hashOf, firstStripped,
    hashBytes_record _ _ (List.pairwise_singleton _ _)]
  decide +kernel

theorem verified_stripped : Verified firstCrypto policy firstStripped := by
  obtain ⟨hbody, hsigned⟩ := validateStructure_eq_ok_iff.mp
    (by decide : firstStripped.validateStructure firstCrypto = .ok ())
  refine ⟨by decide, hbody, hsigned, by decide, by decide, by decide, rfl, ?_,
    rfl⟩
  intro signature hsignature
  have hmem : signature ∈ first.signatures := List.mem_cons.mpr
    (.inl (List.mem_singleton.mp hsignature))
  exact verified_first.signed signature hmem

theorem validFor_stripped :
    ValidFor firstCrypto subject policy firstStripped :=
  ⟨rfl, verified_stripped⟩

def strippedCall : ResolveCall :=
  ⟨subject, [providerOf [firstStripped]], policy⟩

theorem resolve_stripped :
    DiscoveryResolver.new.resolve firstCrypto strippedCall =
      (.ok ⟨firstStripped, strippedHash, 1, 0⟩,
        ⟨KeyTable.empty.set subject ⟨1, strippedHash⟩⟩) := by
  have hselect : select firstCrypto subject [providerOf [firstStripped]]
      policy = .ok ⟨1, strippedHash, firstStripped, 0⟩ := by
    have hgather : gather subject [providerOf [firstStripped]] =
        ⟨[firstStripped], 0⟩ := by
      rw [gather, List.foldl_cons, consult_providerOf]
      rfl
    have hsieved : sieve firstCrypto subject policy ⟨KeyTable.empty, 0⟩
        [firstStripped] = .ok (Sieved.insert ⟨KeyTable.empty, 0⟩ strippedHash
          firstStripped) := by
      rw [sieve_cons_of_valid validFor_stripped, hashOf_stripped]
      rfl
    rw [select_eq (by decide) (by decide) (by rw [hgather]; simp)
      (by rw [hgather]; exact hsieved)]
    rfl
  rw [DiscoveryResolver.resolve, strippedCall, hselect]
  rfl

theorem resolver_rollback_safety_first :
    ∃ new, (final (DiscoveryResolver.resolve firstCrypto)
        (final (DiscoveryResolver.resolve firstCrypto) DiscoveryResolver.new
          [strippedCall]) [strippedCall]).accepted.get subject = some new ∧
      (1 : UInt64).toNat ≤ new.sequence.toNat ∧
      new.sequence.toNat ≤ 2 ∧
      (new.sequence = 1 → new = ⟨1, strippedHash⟩) := by
  refine (resolver_rollback_safety firstCrypto [strippedCall] [strippedCall]
    strippedCall).2 subject ⟨1, strippedHash⟩ ?_
  rw [final_cons, resolve_stripped]
  exact get_set_self

end IdentityWitness

end Shph.Identity
