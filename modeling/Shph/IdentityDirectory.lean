/-
The provider that keeps identity records in a directory, and how a resolver
follows a chain of records that it returns as a whole.  Parsing JSON into a
record is a parameter.
-/
import Shph.IdentityDiscovery

namespace Shph.Identity

open ByteCodec Checked StatefulRun

def maxProviderEntries : Nat := maxProviderRecords * 4

/-- A file of a directory as it is listed. -/
structure DirectoryEntry where
  name : String
  isSymlink : Bool
  bytes : Bytes
deriving Repr, DecidableEq

/-- The name ends in `.json` behind something else. -/
def DirectoryEntry.hasJsonExtension (entry : DirectoryEntry) : Bool :=
  ".json".toList.isSuffixOf entry.name.toList &&
    5 < entry.name.toList.length

def fromJsonBytes (crypto : RecordCrypto)
    (parse : Bytes → Option IdentityRecord) (bytes : Bytes) :
    Option IdentityRecord :=
  if maxRecordBytes < bytes.length then none
  else
    match parse bytes with
    | none => none
    | some record =>
        match record.validateStructure crypto with
        | .ok _ => some record
        | .error _ => none

/-- The directories below the root, one for each subject that has one. -/
structure LocalDirectoryProvider where
  listing : Hash32 → Option (List DirectoryEntry)

namespace LocalDirectoryProvider

def fetchEntries (crypto : RecordCrypto)
    (parse : Bytes → Option IdentityRecord) (subject : Hash32) :
    Nat → List IdentityRecord → List DirectoryEntry →
      Except IdentityError (List IdentityRecord)
  | _, records, [] => .ok records
  | index, records, entry :: rest =>
      if maxProviderEntries ≤ index then
        .error (.providerUnavailable
          "local-directory returned too many directory entries")
      else if ¬ entry.hasJsonExtension ∨ entry.isSymlink ∨
          maxRecordBytes < entry.bytes.length then
        fetchEntries crypto parse subject (index + 1) records rest
      else if maxProviderRecords ≤ records.length then
        .error (.providerUnavailable
          "local-directory returned too many records")
      else
        match fromJsonBytes crypto parse entry.bytes with
        | some record =>
            if record.subject = subject then
              fetchEntries crypto parse subject (index + 1)
                (records ++ [record]) rest
            else fetchEntries crypto parse subject (index + 1) records rest
        | none => fetchEntries crypto parse subject (index + 1) records rest

def fetch (directory : LocalDirectoryProvider) (crypto : RecordCrypto)
    (parse : Bytes → Option IdentityRecord) (subject : Hash32) :
    Except IdentityError (List IdentityRecord) :=
  match directory.listing subject with
  | none => .ok []
  | some entries => fetchEntries crypto parse subject 0 [] entries

def descriptor : DiscoveryPluginDescriptor :=
  ⟨discoveryPluginApiVersion, "local-directory", "local-filesystem",
    ["publication", "retrieval", "self-hosted"]⟩

def provider (directory : LocalDirectoryProvider) (crypto : RecordCrypto)
    (parse : Bytes → Option IdentityRecord) : DiscoveryProvider :=
  ⟨some ("local-directory", descriptor),
    fun subject => some (directory.fetch crypto parse subject)⟩

end LocalDirectoryProvider

section Directory

variable {crypto : RecordCrypto} {parse : Bytes → Option IdentityRecord}
  {subject : Hash32} {directory : LocalDirectoryProvider}
  {records : List IdentityRecord}

theorem fetchEntries_length_le {entries : List DirectoryEntry} {index : Nat}
    {before : List IdentityRecord}
    (hbefore : before.length ≤ maxProviderRecords)
    (hfetch : LocalDirectoryProvider.fetchEntries crypto parse subject index
      before entries = .ok records) :
    records.length ≤ maxProviderRecords := by
  induction entries generalizing index before with
  | nil =>
      cases hfetch
      exact hbefore
  | cons entry rest ih =>
      rw [LocalDirectoryProvider.fetchEntries] at hfetch
      split at hfetch
      · cases hfetch
      · split at hfetch
        · exact ih hbefore hfetch
        · split at hfetch
          · cases hfetch
          · rename_i hroom
            split at hfetch
            · split at hfetch
              · refine ih ?_ hfetch
                rw [List.length_append, List.length_singleton]
                omega
              · exact ih hbefore hfetch
            · exact ih hbefore hfetch

theorem fetch_length_le
    (hfetch : directory.fetch crypto parse subject = .ok records) :
    records.length ≤ maxProviderRecords := by
  rw [LocalDirectoryProvider.fetch] at hfetch
  split at hfetch
  · cases hfetch
    exact Nat.zero_le _
  · exact fetchEntries_length_le (Nat.zero_le _) hfetch

theorem descriptor_valid :
    LocalDirectoryProvider.descriptor.validate = .ok () := by
  decide

/-- Asked alone, the directory supplies all the candidates. -/
theorem gather_directory
    (hfetch : directory.fetch crypto parse subject = .ok records) :
    gather subject [directory.provider crypto parse] = ⟨records, 0⟩ := by
  have hanswers : (directory.provider crypto parse).Answers subject records :=
    ⟨"local-directory", LocalDirectoryProvider.descriptor, rfl,
      descriptor_valid, rfl, congrArg some hfetch⟩
  have hcount := fetch_length_le hfetch
  rw [gather, List.foldl_cons, List.foldl_nil, consult_of_answers hanswers,
    Gathered.extend, if_neg (Nat.not_lt.mpr hcount), if_neg]
  · rfl
  · rw [maxProviderRecords] at hcount
    rw [saturatingAdd, maxTotalCandidates, List.length_nil]
    omega

end Directory

/-- Records numbered from one, each linked to the hash of the one before. -/
structure RecordChain (crypto : RecordCrypto) (chain : List IdentityRecord) :
    Prop where
  nonempty : chain ≠ []
  sequences : ∀ (index : Nat) (record : IdentityRecord),
    chain[index]? = some record → record.sequence.toNat = index + 1
  linked : ∀ (index : Nat) (record next : IdentityRecord),
    chain[index]? = some record → chain[index + 1]? = some next →
      next.previousRecord = some (hashOf crypto record)

/-- What a resolver has accepted that followed the chain for some records. -/
def acceptedAfter (crypto : RecordCrypto) (chain : List IdentityRecord) :
    Nat → Option AcceptedRecord
  | 0 => none
  | index + 1 => chain[index]?.map fun record =>
      ⟨record.sequence, hashOf crypto record⟩

section Chain

variable {crypto : RecordCrypto} {parse : Bytes → Option IdentityRecord}
  {subject : Hash32} {directory : LocalDirectoryProvider}
  {records chain : List IdentityRecord} {policy : VerificationPolicy}

theorem RecordChain.last (hchain : RecordChain crypto chain) :
    ∃ top, chain[chain.length - 1]? = some top ∧
      chain.getLast? = some top ∧ top.sequence.toNat = chain.length := by
  have hlength := List.length_pos_of_ne_nil hchain.nonempty
  have hsome : chain[chain.length - 1]? = some (chain.getLast hchain.nonempty) := by
    rw [← List.getLast?_eq_getElem?, List.getLast?_eq_some_getLast]
  have hsequence := hchain.sequences _ _ hsome
  exact ⟨chain.getLast hchain.nonempty, hsome,
    List.getLast?_eq_some_getLast hchain.nonempty, by omega⟩

theorem RecordChain.eq_of_sequence (hchain : RecordChain crypto chain)
    {left right : IdentityRecord} (hleft : left ∈ chain)
    (hright : right ∈ chain) (hsequence : left.sequence = right.sequence) :
    left = right := by
  obtain ⟨i, hi⟩ := List.mem_iff_getElem?.mp hleft
  obtain ⟨j, hj⟩ := List.mem_iff_getElem?.mp hright
  have hone := hchain.sequences i left hi
  have hother := hchain.sequences j right hj
  rw [hsequence] at hone
  have hindex : i = j := by omega
  rw [hindex, hj, Option.some.injEq] at hi
  exact hi.symm

theorem RecordChain.sequence_le (hchain : RecordChain crypto chain)
    {record : IdentityRecord} (hrecord : record ∈ chain) :
    record.sequence.toNat ≤ chain.length := by
  obtain ⟨index, hindex⟩ := List.mem_iff_getElem?.mp hrecord
  have hsequence := hchain.sequences index record hindex
  have hlt := (List.getElem?_eq_some_iff.mp hindex).1
  omega

/-- Of a chain the last record is selected. -/
theorem select_chain (hchain : RecordChain crypto chain)
    (hfetch : directory.fetch crypto parse subject = .ok records)
    (hmem : ∀ record, record ∈ records ↔ record ∈ chain)
    (hvalid : ∀ record ∈ chain, ValidFor crypto subject policy record)
    {top : IdentityRecord} (htop : chain.getLast? = some top)
    (hsequence : top.sequence.toNat = chain.length) :
    ∃ selected, select crypto subject [directory.provider crypto parse]
        policy = .ok selected ∧ selected.record = top ∧
      selected.sequence = top.sequence ∧
      selected.recordHash = hashOf crypto top := by
  have hgather := gather_directory hfetch
  have htopChain := List.mem_of_getLast? htop
  have htopMem : top ∈ (gather subject
      [directory.provider crypto parse]).candidates := by
    rw [hgather]
    exact (hmem top).mpr htopChain
  have hhighest : ∀ record ∈ (gather subject
      [directory.provider crypto parse]).candidates,
      ValidFor crypto subject policy record →
        record.sequence.toNat ≤ top.sequence.toNat := by
    intro record hrecord _
    rw [hgather] at hrecord
    rw [hsequence]
    exact hchain.sequence_le ((hmem record).mp hrecord)
  have hcount : [directory.provider crypto parse].length ≤
      maxDiscoveryProviders := by
    rw [List.length_singleton]
    decide
  rcases select_of_highest hcount htopMem
    (hvalid top htopChain) hhighest with ⟨selected, hselect, hsame⟩ |
      ⟨_, record, hrecord, _, hsame, hne⟩
  · have hchosen := select_chosen hselect
    have hrecord := hchosen.mem
    rw [hgather] at hrecord
    have heq := hchain.eq_of_sequence ((hmem _).mp hrecord) htopChain
      (hchosen.sequence.trans hsame)
    exact ⟨selected, hselect, heq, hsame, by rw [← hchosen.hash, heq]⟩
  · rw [hgather] at hrecord
    have heq := hchain.eq_of_sequence ((hmem record).mp hrecord) htopChain
      hsame
    rw [heq] at hne
    exact absurd rfl hne

/-- A call that asks the directory only. -/
def directoryCall (crypto : RecordCrypto)
    (parse : Bytes → Option IdentityRecord) (subject : Hash32)
    (directory : LocalDirectoryProvider) (policy : VerificationPolicy) :
    ResolveCall :=
  ⟨subject, [directory.provider crypto parse], policy⟩

/-- One call of a resolver that is at most one record behind. -/
theorem resolve_close (hchain : RecordChain crypto chain)
    (hfetch : directory.fetch crypto parse subject = .ok records)
    (hmem : ∀ record, record ∈ records ↔ record ∈ chain)
    (hvalid : ∀ record ∈ chain, ValidFor crypto subject policy record)
    {resolver : DiscoveryResolver} {known : Nat}
    (hknown : known ≤ chain.length)
    (haccepted : resolver.accepted.get subject =
      acceptedAfter crypto chain known)
    (hclose : chain.length ≤ known + 1) :
    ∃ resolution, (resolver.resolve crypto (directoryCall crypto parse subject
          directory policy)).1 = .ok resolution ∧
      chain.getLast? = some resolution.record ∧
      (resolver.resolve crypto (directoryCall crypto parse subject directory
        policy)).2.accepted.get subject =
          acceptedAfter crypto chain chain.length := by
  obtain ⟨top, hindex, htop, hsequence⟩ := hchain.last
  obtain ⟨selected, hselect, hrecord, hselected, hhash⟩ :=
    select_chain hchain hfetch hmem hvalid htop hsequence
  have hlength := List.length_pos_of_ne_nil hchain.nonempty
  obtain ⟨last, hlast⟩ : ∃ last, chain.length = last + 1 :=
    ⟨chain.length - 1, by omega⟩
  have hend : acceptedAfter crypto chain chain.length =
      some ⟨top.sequence, hashOf crypto top⟩ := by
    rw [hlast, acceptedAfter]
    rw [hlast, Nat.add_sub_cancel] at hindex
    rw [hindex]
    rfl
  rcases Nat.lt_or_ge known chain.length with hbehind | hthere
  · -- one record is missing
    have hfollows : Follows resolver subject selected.record := by
      rw [Follows, haccepted, hrecord]
      cases known with
      | zero =>
          dsimp only [acceptedAfter]
          apply UInt64.toNat_inj.mp
          rw [hsequence, show (1 : UInt64).toNat = 1 from rfl]
          omega
      | succ index =>
          have hlt : index < chain.length := by omega
          have hprevious := List.getElem?_eq_getElem hlt
          rw [acceptedAfter, hprevious]
          dsimp only [Option.map_some]
          have hnumber := hchain.sequences index _ hprevious
          have hnext : chain[index + 1]? = some top := by
            rw [← hindex]
            congr 1
            omega
          exact ⟨by omega, hchain.linked index _ _ hprevious hnext⟩
    have hresolve : resolver.resolve crypto (directoryCall crypto parse
        subject directory policy) = (.ok ⟨selected.record,
          selected.recordHash, 1, selected.invalidCandidates⟩,
          resolver.accept subject selected) :=
      resolve_of_follows hselect hfollows
    rw [hresolve]
    refine ⟨_, rfl, ?_, ?_⟩
    · rw [htop, hrecord]
    · rw [DiscoveryResolver.accept, KeyTable.get_set_self, hend, hselected,
        hhash]
  · -- the last record is the accepted one
    have hsame : known = chain.length := Nat.le_antisymm hknown hthere
    rw [hsame, hend] at haccepted
    have hresolve : resolver.resolve crypto (directoryCall crypto parse
        subject directory policy) = (.ok ⟨selected.record,
          selected.recordHash, 1, selected.invalidCandidates⟩, resolver) := by
      rw [DiscoveryResolver.resolve, directoryCall, hselect]
      dsimp only
      rw [haccepted]
      dsimp only
      rw [hselected, hhash, if_neg (UInt64.lt_irrefl _), if_pos rfl, if_pos rfl]
      rfl
    rw [hresolve]
    refine ⟨_, rfl, ?_, ?_⟩
    · rw [htop, hrecord]
    · rw [haccepted, hend]

/-- A resolver that is further behind is told of a replay, and nothing
changes. -/
theorem resolve_behind (hchain : RecordChain crypto chain)
    (hfetch : directory.fetch crypto parse subject = .ok records)
    (hmem : ∀ record, record ∈ records ↔ record ∈ chain)
    (hvalid : ∀ record ∈ chain, ValidFor crypto subject policy record)
    {resolver : DiscoveryResolver} {known : Nat}
    (haccepted : resolver.accepted.get subject =
      acceptedAfter crypto chain known)
    (hbehind : known + 1 < chain.length) :
    resolver.resolve crypto (directoryCall crypto parse subject directory
      policy) = (.error .replay, resolver) := by
  obtain ⟨top, _, htop, hsequence⟩ := hchain.last
  obtain ⟨selected, hselect, _, hselected, _⟩ :=
    select_chain hchain hfetch hmem hvalid htop hsequence
  rw [← hselected] at hsequence
  rw [DiscoveryResolver.resolve, directoryCall, hselect]
  dsimp only
  rw [haccepted]
  cases known with
  | zero =>
      dsimp only [acceptedAfter]
      rw [if_pos]
      intro hone
      rw [hone, show (1 : UInt64).toNat = 1 from rfl] at hsequence
      omega
  | succ index =>
      have hlt : index < chain.length := by omega
      have hprevious := List.getElem?_eq_getElem hlt
      have hnumber := hchain.sequences index _ hprevious
      rw [acceptedAfter, hprevious]
      dsimp only [Option.map_some]
      rw [if_neg, if_neg, if_pos]
      · left
        rw [saturatingAdd, hnumber, hsequence]
        omega
      · intro heq
        rw [heq] at hsequence
        omega
      · rw [UInt64.lt_iff_toNat_lt]
        omega

/-- Calls to a directory that returns a whole chain: a resolver that is at
most one record behind reaches the last record and stays there, any other one
makes no progress. -/
theorem directory_catch_up (hchain : RecordChain crypto chain)
    (hfetch : directory.fetch crypto parse subject = .ok records)
    (hmem : ∀ record, record ∈ records ↔ record ∈ chain)
    {resolver : DiscoveryResolver} {known : Nat}
    (hknown : known ≤ chain.length)
    (haccepted : resolver.accepted.get subject =
      acceptedAfter crypto chain known)
    (policies : List VerificationPolicy)
    (hvalid : ∀ policy ∈ policies, ∀ record ∈ chain,
      ValidFor crypto subject policy record) :
    let calls := policies.map (directoryCall crypto parse subject directory)
    (chain.length ≤ known + 1 →
      (∀ entry ∈ trace (DiscoveryResolver.resolve crypto) resolver calls,
        ∃ resolution, entry.2 = .ok resolution ∧
          chain.getLast? = some resolution.record) ∧
      (policies ≠ [] →
        (final (DiscoveryResolver.resolve crypto) resolver
          calls).accepted.get subject =
            acceptedAfter crypto chain chain.length)) ∧
    (known + 1 < chain.length →
      (∀ entry ∈ trace (DiscoveryResolver.resolve crypto) resolver calls,
        entry.2 = .error .replay) ∧
      final (DiscoveryResolver.resolve crypto) resolver calls = resolver) := by
  intro calls
  constructor
  · intro hclose
    induction policies generalizing resolver known with
    | nil => exact ⟨fun entry hentry => absurd hentry List.not_mem_nil,
        fun hne => absurd rfl hne⟩
    | cons policy rest ih =>
        rw [List.forall_mem_cons] at hvalid
        obtain ⟨resolution, hok, hlast, hreached⟩ := resolve_close hchain
          hfetch hmem hvalid.1 hknown haccepted hclose
        have hrest := ih (Nat.le_refl _) hreached hvalid.2 (Nat.le_succ _)
        simp only [calls, List.map_cons, trace_cons, final_cons,
          List.forall_mem_cons]
        refine ⟨⟨⟨resolution, hok, hlast⟩, hrest.1⟩, fun _ => ?_⟩
        cases rest with
        | nil => exact hreached
        | cons next more => exact hrest.2 (List.cons_ne_nil _ _)
  · intro hbehind
    induction policies with
    | nil => exact ⟨fun entry hentry => absurd hentry List.not_mem_nil, rfl⟩
    | cons policy rest ih =>
        rw [List.forall_mem_cons] at hvalid
        have hstuck := resolve_behind hchain hfetch hmem hvalid.1 haccepted
          hbehind
        simp only [calls, List.map_cons, trace_cons, final_cons,
          List.forall_mem_cons, hstuck]
        exact ⟨⟨trivial, (ih hvalid.2).1⟩, (ih hvalid.2).2⟩

end Chain

namespace IdentityWitness

def secondRoot : RecordSignature := rootSignature
  0x513a286f24486ea69fd25c13bbf858c5d8b16a0550b3664a2d49333ed2f6cb90
  0x07cd29ba3d043d54e0965c5b720ddea872f579293935c4ee10daaf714608f80e

def secondHash : Hash32 := hash
  0x513b9152afe34670cbb65d3d19069c25aff3945c9e00442ad2e198c6877de8fb

/-- The record after the first one. -/
def second : IdentityRecord := record 2 (some strippedHash) [secondRoot]

def chainCrypto : RecordCrypto := cryptoOf
  [(hashed 1 none [firstRoot], strippedHash),
    (hashed 2 (some strippedHash) [secondRoot], secondHash)]
  [(rootPublic, payload 1 none, firstRoot.signature),
    (rootPublic, payload 2 (some strippedHash), secondRoot.signature)]

def firstJson : List String :=
  ["\x7b\"sequence\":1,\"version\":1,\"subject\":\"3a9b3aaf127f3284fecef1c",
    "d28159c8f706ea11d14a2aaa6add7080a53b3366d\",\"signature_profile\":\"ed",
    "25519\",\"issued_at\":1001,\"expires_at\":2000,\"keys\":[\x7b\"key_id",
    "\":\"69297a0d4a2ce28cb612f3ae42bef009fdb5424ff151bf48a9c59696e57ad139",
    "\",\"role\":\"root-signing\",\"algorithm\":\"ed25519\",\"public_key\":",
    "\"iojj3XQJ8ZX9UtstPLpdcspnCb8dlBIb83SIAbQPb1w=\",\"not_before\":1000,",
    "\"not_after\":5000\x7d,\x7b\"key_id\":\"ee13a5773edb291c9bfb7ad2c02962",
    "7cd1f371e34b3b712ed0e74fbe4de50add\",\"role\":\"recovery-signing\",\"a",
    "lgorithm\":\"ed25519\",\"public_key\":\"gTl3Dqh9F19Wo1Rmw0x+zMuNipG07j",
    "eiXfYPW4/Js5Q=\",\"not_before\":1000,\"not_after\":5000\x7d,\x7b\"key_",
    "id\":\"fa9c24a6b00fdeca1f87054e40a664184467d81a45d11c63854e57a2f809577",
    "d\",\"role\":\"identity-binding\",\"algorithm\":\"x25519\",\"public_ke",
    "y\":\"hSDwCYkwp1R0i33ctD73Wg2/Og0mOBr066SpjqqbTmo=\",\"not_before\":10",
    "00,\"not_after\":5000\x7d],\"endpoints\":[\x7b\"transport\":\"tcp\",\"",
    "address\":\"192.0.2.1:7000\"\x7d],\"capabilities\":[\"relay\"],\"signa",
    "tures\":[\x7b\"key_id\":\"69297a0d4a2ce28cb612f3ae42bef009fdb5424ff151",
    "bf48a9c59696e57ad139\",\"algorithm\":\"ed25519\",\"signature\":\"k8uD1",
    "JTfI7aEq1h/Zp6NQsHcGRbVghvd7CS3h+cg1wyoguC2If5uIvQTN7SoTb/vZpl52wcE94F",
    "4MH/XVH8lDA==\"\x7d]\x7d"]

def secondJson : List String :=
  ["\x7b\"sequence\":2,\"version\":1,\"subject\":\"3a9b3aaf127f3284fecef1c",
    "d28159c8f706ea11d14a2aaa6add7080a53b3366d\",\"signature_profile\":\"ed",
    "25519\",\"issued_at\":1002,\"expires_at\":2000,\"previous_record\":\"e",
    "80349816d442adefc34f4cd91923c08d850fb778a780bf9e5dbf66a4f8bf3a6\",\"ke",
    "ys\":[\x7b\"key_id\":\"69297a0d4a2ce28cb612f3ae42bef009fdb5424ff151bf4",
    "8a9c59696e57ad139\",\"role\":\"root-signing\",\"algorithm\":\"ed25519",
    "\",\"public_key\":\"iojj3XQJ8ZX9UtstPLpdcspnCb8dlBIb83SIAbQPb1w=\",\"n",
    "ot_before\":1000,\"not_after\":5000\x7d,\x7b\"key_id\":\"ee13a5773edb2",
    "91c9bfb7ad2c029627cd1f371e34b3b712ed0e74fbe4de50add\",\"role\":\"recov",
    "ery-signing\",\"algorithm\":\"ed25519\",\"public_key\":\"gTl3Dqh9F19Wo",
    "1Rmw0x+zMuNipG07jeiXfYPW4/Js5Q=\",\"not_before\":1000,\"not_after\":50",
    "00\x7d,\x7b\"key_id\":\"fa9c24a6b00fdeca1f87054e40a664184467d81a45d11c",
    "63854e57a2f809577d\",\"role\":\"identity-binding\",\"algorithm\":\"x25",
    "519\",\"public_key\":\"hSDwCYkwp1R0i33ctD73Wg2/Og0mOBr066SpjqqbTmo=\",",
    "\"not_before\":1000,\"not_after\":5000\x7d],\"endpoints\":[\x7b\"trans",
    "port\":\"tcp\",\"address\":\"192.0.2.1:7000\"\x7d],\"capabilities\":[",
    "\"relay\"],\"signatures\":[\x7b\"key_id\":\"69297a0d4a2ce28cb612f3ae42",
    "bef009fdb5424ff151bf48a9c59696e57ad139\",\"algorithm\":\"ed25519\",\"s",
    "ignature\":\"UToobyRIbqaf0lwTu/hYxdixagVQs2ZKLUkzPtL2y5AHzSm6PQQ9VOCWX",
    "FtyDd6ocvV5KTk1xO4Q2q9xRgj4Dg==\"\x7d]\x7d"]

def fileBytes (pieces : List String) : Bytes := pieces.flatMap textBytes

/-- The parser of JSON on the two texts. -/
def parseTexts (bytes : Bytes) : Option IdentityRecord :=
  if bytes = fileBytes firstJson then some firstStripped
  else if bytes = fileBytes secondJson then some second
  else none

def chainDirectory : LocalDirectoryProvider where
  listing _ := some [⟨"2.json", false, fileBytes secondJson⟩,
    ⟨".1.json.tmp", false, []⟩, ⟨"1.json", false, fileBytes firstJson⟩]

theorem fetch_chain : chainDirectory.fetch chainCrypto parseTexts subject =
    .ok [second, firstStripped] := by
  decide +kernel

theorem hashOf_chain : hashOf chainCrypto firstStripped = strippedHash := by
  rw [hashOf, firstStripped,
    hashBytes_record _ _ (List.pairwise_singleton _ _)]
  decide +kernel

theorem recordChain : RecordChain chainCrypto [firstStripped, second] where
  nonempty := List.cons_ne_nil _ _
  sequences index found hfound := by
    match index with
    | 0 =>
        cases hfound
        rfl
    | 1 =>
        cases hfound
        rfl
    | index + 2 => cases hfound
  linked index found next hfound hnext := by
    match index with
    | 0 =>
        cases hfound
        cases hnext
        rw [hashOf_chain]
        rfl
    | index + 1 => cases hnext

theorem validFor_chain : ∀ found ∈ [firstStripped, second],
    ValidFor chainCrypto subject policy found := by
  have hfirst := validateStructure_eq_ok_iff.mp
    (by decide : firstStripped.validateStructure chainCrypto = .ok ())
  have hsecond := validateStructure_eq_ok_iff.mp
    (by decide : second.validateStructure chainCrypto = .ok ())
  intro found hfound
  simp only [List.mem_cons, List.not_mem_nil, or_false] at hfound
  rcases hfound with rfl | rfl
  · refine ⟨rfl, by decide, hfirst.1, hfirst.2, by decide, by decide,
      by decide, rfl, ?_, rfl⟩
    rw [firstStripped, payloadBytes_record]
    decide +kernel
  · refine ⟨rfl, by decide, hsecond.1, hsecond.2, by decide, by decide,
      by decide, rfl, ?_, rfl⟩
    rw [second, payloadBytes_record]
    decide +kernel

theorem mem_fetched (found : IdentityRecord) :
    found ∈ [second, firstStripped] ↔ found ∈ [firstStripped, second] := by
  simp only [List.mem_cons, List.not_mem_nil, or_false]
  exact or_comm

def chainCall : ResolveCall :=
  directoryCall chainCrypto parseTexts subject chainDirectory policy

/-- A resolver that accepted the first record. -/
def oneBehind : DiscoveryResolver :=
  ⟨KeyTable.empty.set subject ⟨1, strippedHash⟩⟩

theorem directory_catch_up_second :
    ∃ resolution, (oneBehind.resolve chainCrypto chainCall).1 =
        .ok resolution ∧ some second = some resolution.record := by
  have haccepted : oneBehind.accepted.get subject =
      acceptedAfter chainCrypto [firstStripped, second] 1 := by
    rw [oneBehind, KeyTable.get_set_self, acceptedAfter]
    simp only [List.getElem?_cons_zero, Option.map_some, hashOf_chain]
    rfl
  have hvalid : ∀ other ∈ [policy], ∀ found ∈ [firstStripped, second],
      ValidFor chainCrypto subject other found := by
    intro other hother
    rw [List.mem_singleton.mp hother]
    exact validFor_chain
  obtain ⟨hcaught, _⟩ := (directory_catch_up recordChain fetch_chain
    mem_fetched (Nat.le_succ 1) haccepted [policy] hvalid).1 (Nat.le_refl 2)
  simp only [List.map_cons, List.map_nil, trace_cons, trace_nil,
    List.forall_mem_cons] at hcaught
  exact hcaught.1

theorem missed_update_is_replay :
    RecordChain chainCrypto [firstStripped, second] ∧
    (∀ found ∈ [firstStripped, second],
      ValidFor chainCrypto subject policy found) ∧
    chainDirectory.fetch chainCrypto parseTexts subject =
      .ok [second, firstStripped] ∧
    DiscoveryResolver.new.resolve chainCrypto chainCall =
      (.error .replay, DiscoveryResolver.new) := by
  have hfresh : DiscoveryResolver.new.accepted.get subject =
      acceptedAfter chainCrypto [firstStripped, second] 0 := rfl
  exact ⟨recordChain, validFor_chain, fetch_chain, resolve_behind recordChain
    fetch_chain mem_fetched validFor_chain hfresh (Nat.lt_succ_self 1)⟩

end IdentityWitness

end Shph.Identity
