/-
What the resolver gets out of its providers: when one honest provider is
enough whatever the others do, and how a directory that keeps the whole chain
of a subject is followed.
-/
import Shph.IdentityResolver

namespace Shph.Identity

open ByteCodec Checked StatefulRun

section Gathering

variable {subject : Hash32}

/-- The provider describes itself properly and returns these records. -/
def DiscoveryProvider.Answers (provider : DiscoveryProvider)
    (subject : Hash32) (records : List IdentityRecord) : Prop :=
  ∃ providerId descriptor, provider.describe = some (providerId, descriptor) ∧
    descriptor.validate = .ok () ∧ descriptor.pluginId = providerId ∧
      provider.fetch subject = some (.ok records)

theorem consult_of_answers {provider : DiscoveryProvider}
    {records : List IdentityRecord}
    (hanswers : provider.Answers subject records) (gathered : Gathered) :
    Gathered.consult subject gathered provider = gathered.extend records := by
  obtain ⟨providerId, descriptor, hdescribe, hvalid, hid, hfetch⟩ := hanswers
  simp only [Gathered.consult, hdescribe, hvalid, hid, hfetch, ne_eq,
    not_true_eq_false, or_self, if_false]

/-- What one provider can add: nothing, or the records it returned. -/
theorem consult_candidates (subject : Hash32) (gathered : Gathered)
    (provider : DiscoveryProvider) :
    (Gathered.consult subject gathered provider).candidates =
        gathered.candidates ∨
      ∃ records, provider.fetch subject = some (.ok records) ∧
        records.length ≤ maxProviderRecords ∧
        (Gathered.consult subject gathered provider).candidates =
          gathered.candidates ++ records := by
  unfold Gathered.consult
  split
  · exact .inl rfl
  · split
    · exact .inl rfl
    · split
      · rename_i records hfetch
        unfold Gathered.extend
        split
        · exact .inl rfl
        · rename_i hlimit
          split
          · exact .inl rfl
          · exact .inr ⟨records, hfetch, Nat.not_lt.mp hlimit, rfl⟩
      · exact .inl rfl
      · exact .inl rfl

theorem gather_snoc (subject : Hash32) (providers : List DiscoveryProvider)
    (provider : DiscoveryProvider) :
    gather subject (providers ++ [provider]) =
      Gathered.consult subject (gather subject providers) provider := by
  rw [gather, List.foldl_append]
  rfl

theorem mem_consult_of_mem {gathered : Gathered} {record : IdentityRecord}
    (hmem : record ∈ gathered.candidates) (provider : DiscoveryProvider) :
    record ∈ (Gathered.consult subject gathered provider).candidates := by
  rcases consult_candidates subject gathered provider with hsame |
    ⟨records, _, _, hmore⟩
  · rwa [hsame]
  · rw [hmore]
    exact List.mem_append_left _ hmem

theorem mem_foldl_of_mem {gathered : Gathered} {record : IdentityRecord}
    (hmem : record ∈ gathered.candidates)
    (providers : List DiscoveryProvider) :
    record ∈ (providers.foldl (Gathered.consult subject) gathered).candidates := by
  induction providers generalizing gathered with
  | nil => exact hmem
  | cons provider rest ih =>
      rw [List.foldl_cons]
      exact ih (mem_consult_of_mem hmem provider)

/-- Every candidate was returned by some provider. -/
theorem returned_of_mem_gather {record : IdentityRecord}
    {providers : List DiscoveryProvider}
    (hmem : record ∈ (gather subject providers).candidates) :
    ∃ provider ∈ providers, ∃ records,
      provider.fetch subject = some (.ok records) ∧ record ∈ records := by
  induction providers using List.reverseRecOn with
  | nil => exact absurd hmem List.not_mem_nil
  | append_singleton providers provider ih =>
      rw [gather_snoc] at hmem
      rcases consult_candidates subject (gather subject providers)
        provider with hsame | ⟨records, hfetch, _, hmore⟩
      · rw [hsame] at hmem
        obtain ⟨other, hother, hrest⟩ := ih hmem
        exact ⟨other, List.mem_append_left _ hother, hrest⟩
      · rw [hmore] at hmem
        rcases List.mem_append.mp hmem with hold | hnew
        · obtain ⟨other, hother, hrest⟩ := ih hold
          exact ⟨other, List.mem_append_left _ hother, hrest⟩
        · exact ⟨provider, by simp, records, hfetch, hnew⟩

/-- The answer of a provider fits behind those of the providers before it. -/
def Fits (subject : Hash32) (before : List DiscoveryProvider)
    (records : List IdentityRecord) : Prop :=
  records.length ≤ maxProviderRecords ∧
    (gather subject before).candidates.length + records.length ≤
      maxTotalCandidates

/-- Three providers cannot take up the room of a fourth one. -/
theorem fits_of_few {before : List DiscoveryProvider}
    {records : List IdentityRecord} (hfew : before.length ≤ 3)
    (hcount : records.length ≤ maxProviderRecords) :
    Fits subject before records := by
  have hlength : ∀ providers : List DiscoveryProvider,
      (gather subject providers).candidates.length ≤
        providers.length * maxProviderRecords := by
    intro providers
    induction providers using List.reverseRecOn with
    | nil => simp [gather]
    | append_singleton providers provider ih =>
        rw [gather_snoc, List.length_append, List.length_singleton,
          Nat.add_one_mul]
        rcases consult_candidates subject (gather subject providers)
          provider with hsame | ⟨more, _, hmax, hmore⟩
        · rw [hsame]
          omega
        · rw [hmore, List.length_append]
          omega
  refine ⟨hcount, ?_⟩
  have htaken := hlength before
  rw [maxProviderRecords] at htaken hcount
  rw [maxTotalCandidates]
  omega

theorem mem_gather_of_answers {before after : List DiscoveryProvider}
    {honest : DiscoveryProvider} {records : List IdentityRecord}
    {record : IdentityRecord} (hanswers : honest.Answers subject records)
    (hfits : Fits subject before records) (hmem : record ∈ records) :
    record ∈ (gather subject (before ++ honest :: after)).candidates := by
  rw [gather, List.foldl_append, List.foldl_cons]
  apply mem_foldl_of_mem
  rw [consult_of_answers hanswers, ← gather, Gathered.extend,
    if_neg (Nat.not_lt.mpr hfits.1), if_neg]
  · exact List.mem_append_right _ hmem
  · have hroom := hfits.2
    rw [saturatingAdd]
    omega

end Gathering

/-- The records an owner has signed for its subject: one payload for each
sequence number. -/
structure Owner (crypto : RecordCrypto) (subject : Hash32) where
  issued : IdentityRecord → Prop
  valid : ∀ record, issued record →
    record.validateStructure crypto = .ok () ∧ record.subject = subject
  onePayload : ∀ left right, issued left → issued right →
    left.sequence = right.sequence → left.payloadBytes = right.payloadBytes

/-- What verifies in the answer of the provider was signed by the owner. -/
def Unforged {crypto : RecordCrypto} {subject : Hash32}
    (owner : Owner crypto subject) (policy : VerificationPolicy)
    (provider : DiscoveryProvider) : Prop :=
  ∀ records, provider.fetch subject = some (.ok records) →
    ∀ record ∈ records, ValidFor crypto subject policy record →
      ∃ original, owner.issued original ∧
        record.payloadBytes = original.payloadBytes ∧
        record.signatures ⊆ original.signatures

/-- The record comes next for the resolver: it is the first one, or linked to
the accepted one. -/
def Follows (resolver : DiscoveryResolver) (subject : Hash32)
    (next : IdentityRecord) : Prop :=
  match resolver.accepted.get subject with
  | none => next.sequence = 1
  | some previous =>
      next.sequence.toNat = previous.sequence.toNat + 1 ∧
        next.previousRecord = some previous.hash

section Isolation

variable {crypto : RecordCrypto} {resolver : DiscoveryResolver}
  {call : ResolveCall} {selected : Selected} {next : IdentityRecord}

/-- A selected record that comes next is accepted. -/
theorem resolve_of_follows
    (hselect : select crypto call.subject call.providers call.policy =
      .ok selected)
    (hfollows : Follows resolver call.subject selected.record) :
    resolver.resolve crypto call =
      (.ok ⟨selected.record, selected.recordHash, call.providers.length,
          selected.invalidCandidates⟩,
        resolver.accept call.subject selected) := by
  have hchosen := select_chosen hselect
  rw [DiscoveryResolver.resolve, hselect]
  rw [Follows, hchosen.sequence] at hfollows
  dsimp only
  split
  · rename_i previous hprevious
    rw [hprevious] at hfollows
    obtain ⟨hsequence, hlinked⟩ := hfollows
    have hlt : ¬ selected.sequence < previous.sequence := by
      rw [UInt64.lt_iff_toNat_lt]
      omega
    have hne : selected.sequence ≠ previous.sequence := by
      intro heq
      rw [heq] at hsequence
      omega
    have hnext : selected.sequence.toNat =
        saturatingAdd previous.sequence.toNat 1 := by
      have hbound := selected.sequence.toNat_lt
      rw [saturatingAdd, u64Max]
      omega
    rw [if_neg hlt, if_neg hne, if_neg]
    rw [not_or, not_not, not_not]
    exact ⟨hnext, hlinked⟩
  · rename_i hnone
    rw [hnone] at hfollows
    rw [if_neg (not_not.mpr hfollows)]

/-- A valid candidate is a copy of an issued record of its sequence. -/
theorem copy_of_unforged {owner : Owner crypto call.subject}
    (hunforged : ∀ provider ∈ call.providers,
      Unforged owner call.policy provider)
    (hissued : owner.issued next) {record : IdentityRecord}
    (hmem : record ∈ (gather call.subject call.providers).candidates)
    (hvalid : ValidFor crypto call.subject call.policy record) :
    (∃ original, owner.issued original ∧
      record.sequence = original.sequence) ∧
    (record.sequence = next.sequence →
      record.payloadBytes = next.payloadBytes) := by
  obtain ⟨provider, hprovider, records, hfetch, hrecord⟩ :=
    returned_of_mem_gather hmem
  obtain ⟨original, horiginal, hpayload, _⟩ :=
    hunforged provider hprovider records hfetch record hrecord hvalid
  have hbody := (validateStructure_eq_ok_iff.mp
    (owner.valid original horiginal).1).1
  have hsame := sameBody_of_payload hvalid.2.body hbody hpayload
  refine ⟨⟨original, horiginal, hsame.sequence⟩, ?_⟩
  intro hsequence
  rw [hpayload]
  exact owner.onePayload original next horiginal hissued
    (hsame.sequence.symm.trans hsequence)

/-- One provider among those of the call returns the record that comes next,
the last one its owner has signed; no provider forges signatures. -/
structure HonestlyServed (call : ResolveCall)
    (owner : Owner crypto call.subject) (resolver : DiscoveryResolver)
    (before : List DiscoveryProvider) (honest : DiscoveryProvider)
    (after : List DiscoveryProvider)
    (records : List IdentityRecord) (next : IdentityRecord) : Prop where
  providers : call.providers = before ++ honest :: after
  count : call.providers.length ≤ maxDiscoveryProviders
  answers : honest.Answers call.subject records
  returned : next ∈ records
  valid : ValidFor crypto call.subject call.policy next
  issued : owner.issued next
  highest : ∀ record, owner.issued record →
    record.sequence.toNat ≤ next.sequence.toNat
  follows : Follows resolver call.subject next
  unforged : ∀ provider ∈ call.providers, Unforged owner call.policy provider

/-- One honest provider is enough when its answer fits behind the answers
before it and every valid copy of the record that comes next carries all its
signatures.  A copy with another hash that is taken too ends in a conflict. -/
theorem provider_isolation (owner : Owner crypto call.subject)
    {before after : List DiscoveryProvider} {honest : DiscoveryProvider}
    {records : List IdentityRecord}
    (hserved : HonestlyServed call owner resolver before honest after records
      next)
    (hfits : Fits call.subject before records) :
    ((∀ record ∈ (gather call.subject call.providers).candidates,
        ValidFor crypto call.subject call.policy record →
        record.payloadBytes = next.payloadBytes →
          record.signatures.Perm next.signatures) →
      ∃ resolution, (resolver.resolve crypto call).1 = .ok resolution ∧
        resolution.record.payloadBytes = next.payloadBytes) ∧
    ((∃ record ∈ (gather call.subject call.providers).candidates,
        ValidFor crypto call.subject call.policy record ∧
        record.payloadBytes = next.payloadBytes ∧
        hashOf crypto record ≠ hashOf crypto next) →
      resolver.resolve crypto call =
        (.error (.conflict next.sequence), resolver)) := by
  have hmem : next ∈ (gather call.subject call.providers).candidates := by
    rw [hserved.providers]
    exact mem_gather_of_answers hserved.answers hfits hserved.returned
  have hhighest : ∀ record ∈ (gather call.subject call.providers).candidates,
      ValidFor crypto call.subject call.policy record →
        record.sequence.toNat ≤ next.sequence.toNat := by
    intro record hrecord hvalid
    obtain ⟨⟨original, horiginal, hsequence⟩, _⟩ :=
      copy_of_unforged hserved.unforged hserved.issued hrecord hvalid
    rw [hsequence]
    exact hserved.highest original horiginal
  have hselect := select_of_highest hserved.count hmem hserved.valid hhighest
  constructor
  · intro hwhole
    rcases hselect with ⟨selected, hselected, hsequence⟩ |
      ⟨_, record, hrecord, hvalid, hsequence, hne⟩
    · have hchosen := select_chosen hselected
      have hpayload := (copy_of_unforged hserved.unforged hserved.issued
        hchosen.mem hchosen.valid).2 (hchosen.sequence.trans hsequence)
      have hsame := sameBody_of_payload hchosen.valid.2.body
        hserved.valid.2.body hpayload
      have hfollows : Follows resolver call.subject selected.record := by
        rw [Follows, hsame.sequence, hsame.previous]
        exact hserved.follows
      rw [resolve_of_follows hselected hfollows]
      exact ⟨_, rfl, hpayload⟩
    · have hpayload := (copy_of_unforged hserved.unforged hserved.issued
        hrecord hvalid).2 hsequence
      have hsame := sameBody_of_payload hvalid.2.body hserved.valid.2.body
        hpayload
      have hbytes := hashBytes_eq_of_reordered hvalid.2.body
        ⟨hsame, hwhole record hrecord hvalid hpayload⟩
      exact absurd (congrArg crypto.sha256 hbytes) hne
  · rintro ⟨record, hrecord, hvalid, hpayload, hne⟩
    have hsame := sameBody_of_payload hvalid.2.body hserved.valid.2.body
      hpayload
    rcases hselect with ⟨selected, hselected, hsequence⟩ | ⟨hconflict, _⟩
    · have hchosen := select_chosen hselected
      have hone := hchosen.unique record hrecord hvalid
        (hsame.sequence.trans hsequence.symm)
      have hother := hchosen.unique next hmem hserved.valid hsequence.symm
      exact absurd (hone.trans hother.symm) hne
    · rw [DiscoveryResolver.resolve, hconflict]

end Isolation

namespace IdentityWitness

/-- A provider that panics as soon as it is asked who it is. -/
def panicking : DiscoveryProvider := ⟨none, fun _ => none⟩

/-- A provider that is unavailable. -/
def unavailable : DiscoveryProvider :=
  ⟨some ("memory", ⟨1, "memory", "unknown", []⟩),
    fun _ => some (.error (.providerUnavailable "down"))⟩

/-- An owner that has signed one record. -/
def ownerOf (record : IdentityRecord)
    (hvalid : record.validateStructure firstCrypto = .ok ())
    (hsubject : record.subject = subject) : Owner firstCrypto subject where
  issued other := other = record
  valid other hother := by
    rw [hother]
    exact ⟨hvalid, hsubject⟩
  onePayload left right hleft hright _ := by
    rw [hleft, hright]

theorem validate_stripped :
    firstStripped.validateStructure firstCrypto = .ok () := by decide

theorem validate_first : first.validateStructure firstCrypto = .ok () := by
  decide

theorem answers_providerOf (records : List IdentityRecord) :
    (providerOf records).Answers subject records :=
  ⟨"memory", _, rfl, validate_memory, rfl, rfl⟩

/-- One good provider between two bad ones. -/
def servedCall : ResolveCall :=
  ⟨subject, [panicking, providerOf [firstStripped], unavailable], policy⟩

theorem returned_served : ∀ provider ∈ servedCall.providers, ∀ records,
    provider.fetch subject = some (.ok records) →
      records = [firstStripped] := by
  intro provider hprovider records hfetch
  simp only [servedCall, List.mem_cons, List.not_mem_nil, or_false]
    at hprovider
  rcases hprovider with rfl | rfl | rfl
  · cases hfetch
  · cases hfetch
    rfl
  · cases hfetch

theorem provider_isolation_first :
    ∃ resolution, (DiscoveryResolver.new.resolve firstCrypto
        servedCall).1 = .ok resolution ∧
      resolution.record.payloadBytes = firstStripped.payloadBytes := by
  have hserved : HonestlyServed servedCall
      (ownerOf firstStripped validate_stripped rfl) DiscoveryResolver.new
      [panicking] (providerOf [firstStripped]) [unavailable] [firstStripped]
      firstStripped := by
    refine ⟨rfl, by decide, answers_providerOf _, List.mem_singleton_self _,
      validFor_stripped, rfl, ?_, rfl, ?_⟩
    · rintro record rfl
      exact Nat.le_refl _
    · intro provider hprovider records hfetch record hrecord hvalid
      rw [returned_served provider hprovider records hfetch,
        List.mem_singleton] at hrecord
      subst hrecord
      exact ⟨firstStripped, rfl, rfl, fun _ hmem => hmem⟩
  refine (provider_isolation _ hserved
    (fits_of_few (by decide) (by decide))).1 ?_
  intro record hrecord _ _
  obtain ⟨provider, hprovider, records, hfetch, hmem⟩ :=
    returned_of_mem_gather hrecord
  rw [returned_served provider hprovider records hfetch,
    List.mem_singleton] at hmem
  rw [hmem]

/-- The record with both its signatures, and a copy with one of them. -/
def strippedToo : ResolveCall :=
  ⟨subject, [providerOf [first], providerOf [firstStripped]], policy⟩

theorem hashOf_first : hashOf firstCrypto first = firstHash := by
  rw [hashOf, first, hashBytes_record]
  · decide +kernel
  · decide

theorem validFor_first : ValidFor firstCrypto subject policy first :=
  ⟨rfl, verified_first⟩

/-- What a provider of the calls below returns is the record, or is not
valid. -/
theorem unforged_providerOf {records : List IdentityRecord}
    (hreturned : ∀ record ∈ records, ValidFor firstCrypto subject policy
      record → record = first ∨ record = firstStripped) :
    Unforged (ownerOf first validate_first rfl) policy
      (providerOf records) := by
  intro returned hfetch record hrecord hvalid
  cases hfetch
  refine ⟨first, rfl, ?_⟩
  rcases hreturned record hrecord hvalid with rfl | rfl
  · exact ⟨rfl, fun _ hmem => hmem⟩
  · exact ⟨rfl, fun _ hmem => List.mem_cons.mpr
      (.inl (List.mem_singleton.mp hmem))⟩

theorem stripped_served :
    HonestlyServed strippedToo (ownerOf first validate_first rfl)
      DiscoveryResolver.new [] (providerOf [first])
      [providerOf [firstStripped]] [first] first := by
  refine ⟨rfl, by decide, answers_providerOf _, List.mem_singleton_self _,
    validFor_first, rfl, ?_, rfl, ?_⟩
  · rintro record rfl
    exact Nat.le_refl _
  · intro provider hprovider
    simp only [strippedToo, List.mem_cons, List.not_mem_nil, or_false]
      at hprovider
    rcases hprovider with rfl | rfl
    · exact unforged_providerOf fun _ hrecord _ =>
        .inl (List.mem_singleton.mp hrecord)
    · exact unforged_providerOf fun _ hrecord _ =>
        .inr (List.mem_singleton.mp hrecord)

theorem stripped_conflict :
    DiscoveryResolver.new.resolve firstCrypto strippedToo =
      (.error (.conflict 1), DiscoveryResolver.new) := by
  have hgather : gather subject strippedToo.providers =
      ⟨[first, firstStripped], 0⟩ := by
    rw [gather, strippedToo, List.foldl_cons, consult_providerOf,
      List.foldl_cons, consult_providerOf]
    rfl
  have hsieved : sieve firstCrypto subject policy ⟨KeyTable.empty, 0⟩
      [first, firstStripped] = .ok
        ((Sieved.insert ⟨KeyTable.empty, 0⟩ firstHash first).insert
          strippedHash firstStripped) := by
    rw [sieve_cons_of_valid validFor_first,
      sieve_cons_of_valid validFor_stripped, hashOf_first, hashOf_stripped]
    rfl
  have hselect : select firstCrypto subject strippedToo.providers policy =
      .error (.conflict 1) := by
    rw [select_eq (by decide) (by decide) (by rw [hgather]; simp)
      (by rw [hgather]; exact hsieved)]
    decide
  rw [DiscoveryResolver.resolve, show strippedToo.subject = subject from rfl,
    show strippedToo.policy = policy from rfl, hselect]

/-- The record under the name of another subject. -/
def foreign : IdentityRecord :=
  { first with subject := firstHash }

/-- A provider that returns as much as one provider may. -/
def flooding : DiscoveryProvider :=
  providerOf (List.replicate maxProviderRecords foreign)

def flooded : ResolveCall :=
  ⟨subject, List.replicate 4 flooding ++ [providerOf [first]], policy⟩

theorem not_validFor_foreign :
    ¬ ValidFor firstCrypto subject policy foreign := by
  rintro ⟨hsubject, -⟩
  revert hsubject
  decide

theorem extend_flooding {count : Nat}
    (hroom : count + maxProviderRecords ≤ maxTotalCandidates) :
    (⟨List.replicate count foreign, 0⟩ : Gathered).extend
        (List.replicate maxProviderRecords foreign) =
      ⟨List.replicate (count + maxProviderRecords) foreign, 0⟩ := by
  rw [Gathered.extend, List.length_replicate, List.length_replicate,
    if_neg (Nat.lt_irrefl _), if_neg, List.replicate_append_replicate]
  rw [saturatingAdd]
  omega

theorem gather_flooding {count : Nat} (hfew : count ≤ 4) :
    gather subject (List.replicate count flooding) =
      ⟨List.replicate (count * maxProviderRecords) foreign, 0⟩ := by
  induction count with
  | zero => rfl
  | succ count ih =>
      rw [List.replicate_succ', gather_snoc, ih (by omega), flooding,
        consult_providerOf, extend_flooding, Nat.add_one_mul]
      rw [maxProviderRecords, maxTotalCandidates]
      omega

theorem gather_flooded : gather subject flooded.providers =
    ⟨List.replicate maxTotalCandidates foreign, 1⟩ := by
  rw [flooded, gather_snoc, gather_flooding (Nat.le_refl 4),
    consult_providerOf, Gathered.extend, List.length_replicate]
  rfl

theorem flooded_served :
    HonestlyServed flooded (ownerOf first validate_first rfl)
      DiscoveryResolver.new (List.replicate 4 flooding) (providerOf [first])
      [] [first] first := by
  refine ⟨rfl, by decide, answers_providerOf _, List.mem_singleton_self _,
    validFor_first, rfl, ?_, rfl, ?_⟩
  · rintro record rfl
    exact Nat.le_refl _
  · intro provider hprovider
    rcases List.mem_append.mp hprovider with hflood | hhonest
    · rw [List.eq_of_mem_replicate hflood]
      apply unforged_providerOf
      intro record hrecord hvalid
      rw [List.eq_of_mem_replicate hrecord] at hvalid
      exact absurd hvalid not_validFor_foreign
    · rw [List.mem_singleton.mp hhonest]
      exact unforged_providerOf fun _ hrecord _ =>
        .inl (List.mem_singleton.mp hrecord)

theorem flooded_not_fits :
    ¬ Fits subject (List.replicate 4 flooding) [first] := by
  rintro ⟨-, hroom⟩
  have htaken : (gather subject
      (List.replicate 4 flooding)).candidates.length =
        maxTotalCandidates := by
    rw [gather_flooding (Nat.le_refl 4)]
    exact List.length_replicate
  rw [htaken] at hroom
  exact Nat.not_succ_le_self _ hroom

theorem flooded_notFound :
    DiscoveryResolver.new.resolve firstCrypto flooded =
      (.error .notFound, DiscoveryResolver.new) := by
  have hselect : select firstCrypto subject flooded.providers policy =
      .error .notFound := by
    apply select_of_invalid (by decide) (by decide)
    · rw [gather_flooded, ne_eq, List.replicate_eq_nil_iff]
      decide
    · intro record hrecord
      rw [gather_flooded] at hrecord
      rw [List.eq_of_mem_replicate hrecord]
      exact not_validFor_foreign
  rw [DiscoveryResolver.resolve, show flooded.subject = subject from rfl,
    show flooded.policy = policy from rfl, hselect]

/-- A copy that lacks a signature makes the answer a conflict, and four
providers that return all they may leave no room for it. -/
theorem other_providers_block_resolution :
    (HonestlyServed strippedToo (ownerOf first validate_first rfl)
        DiscoveryResolver.new [] (providerOf [first])
        [providerOf [firstStripped]] [first] first ∧
      DiscoveryResolver.new.resolve firstCrypto strippedToo =
        (.error (.conflict 1), DiscoveryResolver.new)) ∧
    HonestlyServed flooded (ownerOf first validate_first rfl)
      DiscoveryResolver.new (List.replicate 4 flooding) (providerOf [first])
      [] [first] first ∧
    ¬ Fits subject (List.replicate 4 flooding) [first] ∧
    DiscoveryResolver.new.resolve firstCrypto flooded =
      (.error .notFound, DiscoveryResolver.new) :=
  ⟨⟨stripped_served, stripped_conflict⟩, flooded_served, flooded_not_fits,
    flooded_notFound⟩

end IdentityWitness

end Shph.Identity
