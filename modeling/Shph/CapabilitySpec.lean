/-
What the replay cache and the verifier do, one statement for each operation.
The cache keeps every pair twice, in a heap and in a map; as long as both hold
the same pairs, pruning leaves exactly the entries that have not expired.
-/
import Shph.Capability
import Shph.FileSpoolSpec

namespace Shph.Edge

open ByteCodec Checked CapabilityVerifier
namespace ReplayCache

/-- The pairs of the map, the way the heap has them. -/
def pairs (cache : ReplayCache) : List (Nat × Nonce) :=
  cache.entries.entries.map Prod.swap

/-- The heap and the map hold the same pairs. -/
def Consistent (cache : ReplayCache) : Prop :=
  cache.expirations.items.Perm cache.pairs

/-- The entries whose expiry has not passed. -/
def live (cache : ReplayCache) (now : Nat) : List (Nonce × Nat) :=
  cache.entries.entries.filter fun entry => now < entry.2

theorem mem_live_iff {cache : ReplayCache} {now : Nat}
    {entry : Nonce × Nat} : entry ∈ cache.live now ↔
      entry ∈ cache.entries.entries ∧ now < entry.2 := by
  simp [live]

theorem holdsLive_iff {cache : ReplayCache} {nonce : Nonce} {now : Nat} :
    cache.holdsLive nonce now = true ↔
      nonce ∈ (cache.live now).map Prod.fst := by
  rw [holdsLive, Option.any_eq_true, List.mem_map]
  constructor
  · rintro ⟨expiry, hget, hlive⟩
    exact ⟨(nonce, expiry), mem_live_iff.mpr
      ⟨KeyTable.get_eq_some_iff.mp hget, by simpa using hlive⟩, rfl⟩
  · rintro ⟨⟨_, expiry⟩, hmem, rfl⟩
    obtain ⟨hentry, hlive⟩ := mem_live_iff.mp hmem
    exact ⟨expiry, KeyTable.get_eq_some_iff.mpr hentry, by simpa using hlive⟩

theorem Consistent.mem_items_iff {cache : ReplayCache} (hcache : cache.Consistent)
    {expiresAt : Nat} {nonce : Nonce} :
    (expiresAt, nonce) ∈ cache.expirations.items ↔
      (nonce, expiresAt) ∈ cache.entries.entries := by
  rw [List.Perm.mem_iff hcache, pairs, List.mem_map]
  constructor
  · rintro ⟨⟨_, _⟩, hmem, heq⟩
    cases heq
    exact hmem
  · intro hmem
    exact ⟨_, hmem, rfl⟩

theorem Consistent.entries_of_empty {cache : ReplayCache}
    (hcache : cache.Consistent) (hempty : cache.expirations.items = []) :
    cache.entries.entries = [] := by
  rw [Consistent, hempty, List.nil_perm, pairs, List.map_eq_nil_iff] at hcache
  exact hcache

/-- The pair in front of the heap leaves both collections. -/
theorem Consistent.dropExpired {cache : ReplayCache}
    (hcache : cache.Consistent) {expiresAt : Nat} {nonce : Nonce}
    (hpeek : cache.expirations.peek = some (expiresAt, nonce)) :
    (cache.dropExpired expiresAt nonce).Consistent ∧
      (cache.dropExpired expiresAt nonce).entries =
        cache.entries.erase nonce := by
  have hitems := MinQueue.items_of_peek hpeek
  have hentry : (nonce, expiresAt) ∈ cache.entries.entries := by
    rw [← hcache.mem_items_iff, hitems]
    exact List.mem_cons_self
  have herase : (cache.dropExpired expiresAt nonce).entries =
      cache.entries.erase nonce :=
    if_pos (KeyTable.get_eq_some_iff.mpr hentry)
  refine ⟨?_, herase⟩
  have hsame : cache.expirations.items.Perm
      ((expiresAt, nonce) :: (cache.entries.erase nonce).entries.map
        Prod.swap) :=
    hcache.trans ((KeyTable.perm_cons_erase hentry).map Prod.swap)
  rw [hitems] at hsame
  rw [Consistent, pairs, herase]
  exact hsame.cons_inv

theorem live_erase_of_expired {cache : ReplayCache} {expiresAt now : Nat}
    {nonce : Nonce} (hentry : (nonce, expiresAt) ∈ cache.entries.entries)
    (hexpired : expiresAt ≤ now) :
    (cache.entries.erase nonce).entries.filter (fun entry => now < entry.2) =
      cache.live now := by
  rw [KeyTable.erase, List.filter_filter, live]
  apply List.filter_congr
  rintro ⟨key, expiry⟩ hother
  by_cases hkey : key = nonce
  · subst hkey
    have hboth := KeyTable.get_eq_some_iff.mpr hentry
    rw [KeyTable.get_eq_some_iff.mpr hother, Option.some.injEq] at hboth
    simp [hboth, hexpired]
  · simp [hkey]

/-- Pruning keeps exactly the entries whose expiry has not passed. -/
theorem pruneLoop_spec {now turns : Nat} {cache : ReplayCache}
    (hcache : cache.Consistent) (hturns : cache.expirations.size ≤ turns) :
    (pruneLoop now turns cache).Consistent ∧
      (pruneLoop now turns cache).entries.entries = cache.live now ∧
        (pruneLoop now turns cache).capacity = cache.capacity := by
  induction turns generalizing cache with
  | zero =>
      have hempty := List.length_eq_zero_iff.mp (Nat.le_zero.mp hturns)
      refine ⟨hcache, ?_, rfl⟩
      rw [pruneLoop, live, hcache.entries_of_empty hempty, List.filter_nil]
  | succ turns ih =>
      rw [pruneLoop]
      split
      · rename_i hnone
        have hempty := MinQueue.peek_eq_none_iff.mp hnone
        refine ⟨hcache, ?_, rfl⟩
        rw [live, hcache.entries_of_empty hempty, List.filter_nil]
      · rename_i expiresAt nonce hpeek
        split
        · rename_i hfresh
          refine ⟨hcache, ?_, rfl⟩
          rw [live, eq_comm, List.filter_eq_self]
          rintro ⟨key, expiry⟩ hmem
          have hitem := hcache.mem_items_iff.mpr hmem
          rw [decide_eq_true_eq]
          rcases MinQueue.eq_or_le_of_peek hpeek hitem with heq | hlt | heq
          · rw [Prod.mk.injEq] at heq
            exact heq.1 ▸ hfresh
          · exact Nat.lt_trans hfresh hlt
          · exact Nat.lt_of_lt_of_eq hfresh heq.1
        · rename_i hexpired
          have hitems := MinQueue.items_of_peek hpeek
          have hentry : (nonce, expiresAt) ∈ cache.entries.entries := by
            rw [← hcache.mem_items_iff, hitems]
            exact List.mem_cons_self
          obtain ⟨hnext, herase⟩ := hcache.dropExpired hpeek
          have hsize : (cache.dropExpired expiresAt nonce).expirations.size ≤
              turns := by
            rw [MinQueue.size, hitems, List.length_cons] at hturns
            exact Nat.le_of_succ_le_succ hturns
          obtain ⟨hkept, hlive, hcapacity⟩ := ih hnext hsize
          refine ⟨hkept, ?_, hcapacity⟩
          rw [hlive, live, herase]
          exact live_erase_of_expired hentry (Nat.le_of_not_lt hexpired)

theorem prune_spec {cache : ReplayCache} (hcache : cache.Consistent)
    (now : Nat) : (cache.prune now).Consistent ∧
      (cache.prune now).entries.entries = cache.live now ∧
        (cache.prune now).capacity = cache.capacity :=
  pruneLoop_spec hcache (Nat.le_refl _)

/-- A nonce is taken exactly when it is not among the live entries, its
expiry has not passed and there is room for it. -/
def Takes (cache : ReplayCache) (nonce : Nonce) (expiresAt now : Nat) :
    Prop :=
  nonce ∉ (cache.live now).map Prod.fst ∧ now < expiresAt ∧
    (cache.live now).length < cache.capacity

theorem insert_of_takes {cache : ReplayCache} (hcache : cache.Consistent)
    {nonce : Nonce} {expiresAt now : Nat}
    (htakes : cache.Takes nonce expiresAt now) :
    (cache.insert nonce expiresAt now).1 = true ∧
      (cache.insert nonce expiresAt now).2.Consistent ∧
        (cache.insert nonce expiresAt now).2.entries.entries =
          cache.live now ++ [(nonce, expiresAt)] ∧
        (cache.insert nonce expiresAt now).2.capacity = cache.capacity := by
  obtain ⟨hnew, hfresh, hroom⟩ := htakes
  obtain ⟨hkept, hlive, hcapacity⟩ := prune_spec hcache now
  have habsent : nonce ∉ (cache.prune now).entries.entries.map Prod.fst := by
    rwa [hlive]
  have hpruned : ¬ (expiresAt ≤ now ∨
      (cache.prune now).entries.contains nonce = true) := by
    rw [KeyTable.contains_iff]
    rintro (hpast | hmem)
    · omega
    · exact habsent hmem
  have hspace : ¬ (cache.prune now).capacity ≤ (cache.prune now).len := by
    rw [hcapacity, len, KeyTable.size, hlive]
    omega
  have hset : ((cache.prune now).entries.set nonce expiresAt).entries =
      (cache.prune now).entries.entries ++ [(nonce, expiresAt)] :=
    KeyTable.entries_set_of_new habsent
  rw [insert, if_neg (mt holdsLive_iff.mp hnew)]
  dsimp only
  rw [if_neg hpruned, if_neg hspace]
  refine ⟨rfl, ?_, by rw [← hlive]; exact hset, hcapacity⟩
  have hpush := MinQueue.push_perm (cache.prune now).expirations
    (expiresAt, nonce)
  have hpairs : ((cache.prune now).entries.set nonce expiresAt).entries.map
      Prod.swap = (cache.prune now).pairs ++ [(expiresAt, nonce)] := by
    rw [hset, List.map_append]
    rfl
  refine (hpush.trans (List.Perm.cons _ hkept)).trans ?_
  change ((expiresAt, nonce) :: (cache.prune now).pairs).Perm
    (((cache.prune now).entries.set nonce expiresAt).entries.map Prod.swap)
  rw [hpairs]
  exact (List.perm_append_singleton _ _).symm

/-- A refused nonce costs the cache nothing but expired entries. -/
theorem insert_of_not_takes {cache : ReplayCache}
    (hcache : cache.Consistent) {nonce : Nonce} {expiresAt now : Nat}
    (hnot : ¬ cache.Takes nonce expiresAt now) :
    (cache.insert nonce expiresAt now).1 = false ∧
      (cache.insert nonce expiresAt now).2.Consistent ∧
        ((cache.insert nonce expiresAt now).2 = cache ∨
          (cache.insert nonce expiresAt now).2 = cache.prune now) := by
  obtain ⟨hkept, hlive, hcapacity⟩ := prune_spec hcache now
  rw [insert]
  dsimp only
  split
  · exact ⟨rfl, hcache, Or.inl rfl⟩
  · rename_i hunheld
    split
    · exact ⟨rfl, hkept, Or.inr rfl⟩
    · rename_i hopen
      split
      · exact ⟨rfl, hkept, Or.inr rfl⟩
      · rename_i hspace
        rw [not_or, KeyTable.contains_iff, hlive] at hopen
        rw [hcapacity, len, KeyTable.size, hlive] at hspace
        exact absurd ⟨hopen.2, Nat.lt_of_not_le hopen.1,
          Nat.lt_of_not_le hspace⟩ hnot

/-- Nothing but entries that have expired by now is missing, and nothing is
new. -/
def PrunedAt (now : Nat) (before after : ReplayCache) : Prop :=
  after = before ∨ after = before.prune now

theorem PrunedAt.live_eq {before after : ReplayCache} {now later : Nat}
    (hpruned : PrunedAt now before after) (hbefore : before.Consistent)
    (hlater : now ≤ later) : after.live later = before.live later := by
  rcases hpruned with rfl | rfl
  · rfl
  · rw [live, (prune_spec hbefore now).2.1, live, List.filter_filter, live]
    apply List.filter_congr
    intro entry _
    rw [← Bool.decide_and, decide_eq_decide]
    omega

theorem PrunedAt.subset {before after : ReplayCache} {now : Nat}
    (hpruned : PrunedAt now before after) (hbefore : before.Consistent) :
    after.entries.entries.Sublist before.entries.entries := by
  rcases hpruned with rfl | rfl
  · exact List.Sublist.refl _
  · rw [(prune_spec hbefore now).2.1]
    exact List.filter_sublist

theorem PrunedAt.capacity_eq {before after : ReplayCache} {now : Nat}
    (hpruned : PrunedAt now before after) (hbefore : before.Consistent) :
    after.capacity = before.capacity := by
  rcases hpruned with rfl | rfl
  · rfl
  · exact (prune_spec hbefore now).2.2

/-- The instants at which a verified token may be committed. -/
def OpenAt (verified : VerifiedCapability) (now : Nat) : Prop :=
  verified.validFrom ≤ now ∧ now < verified.replayExpiresAt

/-- A commit inside the interval of the token, with its nonce unused and room
in the cache, spends the token. -/
theorem consume_of_takes {cache : ReplayCache} (hcache : cache.Consistent)
    {verified : VerifiedCapability} {now : Nat} (hopen : OpenAt verified now)
    (htakes : cache.Takes verified.claims.nonce verified.replayExpiresAt
      now) :
    (cache.consume verified now).1 = .ok verified.claims ∧
      (cache.consume verified now).2 =
        (cache.insert verified.claims.nonce verified.replayExpiresAt
          now).2 := by
  have htrue := (insert_of_takes hcache htakes).1
  rw [consume, if_neg (Nat.not_lt.mpr hopen.1),
    if_neg (Nat.not_le.mpr hopen.2)]
  generalize cache.insert verified.claims.nonce verified.replayExpiresAt now =
    inserted at htrue ⊢
  obtain ⟨answer, next⟩ := inserted
  subst htrue
  exact ⟨rfl, rfl⟩

/-- Every other commit is an error and spends nothing. -/
theorem consume_of_not_takes {cache : ReplayCache}
    (hcache : cache.Consistent) {verified : VerifiedCapability} {now : Nat}
    (hnot : ¬ (OpenAt verified now ∧
      cache.Takes verified.claims.nonce verified.replayExpiresAt now)) :
    (∃ error, (cache.consume verified now).1 = .error error) ∧
      (cache.consume verified now).2.Consistent ∧
        PrunedAt now cache (cache.consume verified now).2 := by
  rw [consume]
  split
  · exact ⟨⟨_, rfl⟩, hcache, Or.inl rfl⟩
  · rename_i hstarted
    split
    · exact ⟨⟨_, rfl⟩, hcache, Or.inl rfl⟩
    · rename_i hunexpired
      have hopen : OpenAt verified now :=
        ⟨Nat.le_of_not_lt hstarted, Nat.lt_of_not_le hunexpired⟩
      have hrefused := insert_of_not_takes hcache
        fun htakes => hnot ⟨hopen, htakes⟩
      generalize cache.insert verified.claims.nonce verified.replayExpiresAt
        now = inserted at hrefused ⊢
      obtain ⟨answer, next⟩ := inserted
      obtain ⟨hfalse, hnext⟩ := hrefused
      subst hfalse
      exact ⟨⟨_, rfl⟩, hnext⟩

end ReplayCache

/-- The shape every issued claim has. -/
structure WellFormed (claims : CapabilityClaims) : Prop where
  audience_ne : textBytes claims.audience ≠ []
  audience_le : (textBytes claims.audience).length ≤ maxAudienceLen
  lifetime : claims.issuedAt < claims.expiresAt

theorem validateShape_eq_ok_iff {claims : CapabilityClaims} {now : Nat}
    {maxLifetime : Duration} {done : Unit} :
    claims.validateShape now maxLifetime = .ok done ↔
      (textBytes claims.audience ≠ [] ∧
        (textBytes claims.audience).length ≤ maxAudienceLen) ∧
      ((textBytes claims.audience).all (· < 0x80) = true ∧
        ¬ (textBytes claims.audience).any
          CapabilityClaims.forbiddenByte = true) ∧
      claims.issuedAt < claims.expiresAt ∧
      claims.expiresAt.toNat - claims.issuedAt.toNat ≤ maxLifetime.asSecs ∧
      claims.issuedAt.toNat ≤ now ∧ now < claims.expiresAt.toNat := by
  simp only [CapabilityClaims.validateShape, bind_eq_ok, require_eq_ok_iff,
    exists_and_left, exists_const]

theorem encode_eq_ok_iff {claims : CapabilityClaims} {payload : Bytes} :
    claims.encode = .ok payload ↔
      (textBytes claims.audience).length ≤ 255 ∧
      UInt8.ofNat (textBytes claims.audience).length ::
        (textBytes claims.audience ++ (bigEndian 8 claims.issuedAt.toNat ++
          (bigEndian 8 claims.expiresAt.toNat ++ claims.nonce.val))) =
            payload := by
  simp only [CapabilityClaims.encode, bind_eq_ok, require_eq_ok_iff,
    exists_and_left, exists_const, pure_eq_ok, List.cons_append,
    List.append_assoc]

/-- Where the four parts of an encoding lie. -/
theorem encoded_parts (head : UInt8) (audience : Bytes)
    {issued expires : Bytes} (nonce : Bytes) (hissued : issued.length = 8) (hexpires : expires.length = 8) :
    let payload := head :: (audience ++ (issued ++ (expires ++ nonce)))
    slice payload 1 audience.length = audience ∧
      slice payload (1 + audience.length) 8 = issued ∧
      slice payload (1 + audience.length + 8) 8 = expires ∧
      payload.drop (1 + audience.length + 8 + 8) = nonce := by
  intro payload
  have hfirst : payload = [head] ++ (audience ++ (issued ++ (expires ++
    nonce))) := rfl
  have hsecond : payload = ([head] ++ audience) ++ (issued ++ (expires ++
      nonce)) := by
    rw [hfirst, List.append_assoc]
  have hthird : payload = ([head] ++ audience ++ issued) ++ (expires ++
      nonce) := by
    rw [hsecond, List.append_assoc _ issued]
  have hfourth : payload = ([head] ++ audience ++ issued ++ expires) ++
      nonce := by
    rw [hthird, List.append_assoc _ expires]
  refine ⟨?_, ?_, ?_, ?_⟩
  · rw [hfirst]
    exact slice_append rfl rfl
  · rw [hsecond]
    exact slice_append (by simp; omega) hissued
  · rw [hthird]
    exact slice_append (by simp; omega) hexpires
  · rw [hfourth]
    apply List.drop_left'
    simp
    omega

/-- Reading back what was encoded gives the claims. -/
theorem decode_of_encode {claims : CapabilityClaims} {payload : Bytes}
    (hclaims : WellFormed claims) (hencode : claims.encode = .ok payload) :
    CapabilityClaims.decode payload = .ok claims := by
  obtain ⟨_, rfl⟩ := encode_eq_ok_iff.mp hencode
  have hpos := List.length_pos_iff.mpr hclaims.audience_ne
  have hle := hclaims.audience_le
  have hlength : (UInt8.ofNat (textBytes claims.audience).length).toNat =
      (textBytes claims.audience).length := by
    rw [UInt8.toNat_ofNat']
    unfold maxAudienceLen at hle
    omega
  have hnonce := claims.nonce.length_eq
  obtain ⟨haudience, hissued, hexpires, hrest⟩ :=
    encoded_parts (UInt8.ofNat (textBytes claims.audience).length)
      (textBytes claims.audience) claims.nonce.val
      (bigEndian_length 8 claims.issuedAt.toNat)
      (bigEndian_length 8 claims.expiresAt.toNat)
  simp only [CapabilityClaims.decode, bind_eq_ok, require_eq_ok_iff,
    valueOr_eq_ok_iff, exists_and_left, exists_const, List.headD_cons,
    hlength, haudience, hissued, hexpires, hrest]
  simp only [List.length_cons, List.length_append, bigEndian_length, hnonce]
  refine ⟨by omega, ⟨by omega, hle, by omega⟩, claims.audience,
    fromUTF8?_textBytes _, claims.nonce, FixedBytes.ofBytes?_val _, ?_⟩
  rw [ofBigEndian_bigEndian claims.issuedAt.toNat_lt,
    ofBigEndian_bigEndian claims.expiresAt.toNat_lt, UInt64.ofNat_toNat,
    UInt64.ofNat_toNat]
  rfl

theorem splitOnce_append {front back : List Char}
    (hfront : ∀ char ∈ front, char ≠ '.') :
    splitOnce (front ++ '.' :: back) = some (front, back) := by
  induction front with
  | nil => simp [splitOnce]
  | cons char front ih =>
      rw [List.forall_mem_cons] at hfront
      rw [List.cons_append, splitOnce, if_neg hfront.1, ih hfront.2]
      rfl

/-- A token is read back as the payload and the signature it was built
from. -/
theorem parseToken_of_parts {payload signature : Bytes}
    (hpayload : payload.length ≤ 97) (hsignature : signature.length = 64) :
    parseToken (String.ofList (tokenStart ++
      Base64.encodeUrlDigits payload ++ '.' ::
        Base64.encodeUrlDigits signature)) = .ok (payload, signature) := by
  simp only [parseToken, bind_eq_ok, require_eq_ok_iff,
    valueOr_eq_ok_iff, exists_and_left, exists_const, String.toList_ofList]
  refine ⟨?_, _, ?_, _, splitOnce_append fun char hchar =>
    (Base64.encodeUrlDigits_plain payload char hchar).1, payload,
    Base64.decodeUrlDigits_encodeUrlDigits payload, signature,
    Base64.decodeUrlDigits_encodeUrlDigits signature, hsignature, rfl⟩
  · have hbytes := utf8ByteSize_le (String.ofList (tokenStart ++
      Base64.encodeUrlDigits payload ++ '.' ::
        Base64.encodeUrlDigits signature))
    have hfirst := Base64.encodeUrlDigits_length_le payload
    have hsecond := Base64.encodeUrlDigits_length_le signature
    have hstart : tokenStart.length = 14 := by decide
    rw [String.length_ofList, List.length_append, List.length_append,
      List.length_cons, hstart] at hbytes
    unfold maxTokenLen
    omega
  · rw [List.dropPrefix?_eq_some_iff]
    exact ⟨tokenStart, by rw [List.append_assoc], by simp⟩

theorem encode_length {claims : CapabilityClaims} {payload : Bytes}
    (hclaims : WellFormed claims) (hencode : claims.encode = .ok payload) :
    payload.length ≤ 97 := by
  obtain ⟨_, rfl⟩ := encode_eq_ok_iff.mp hencode
  have hle := hclaims.audience_le
  have hnonce := claims.nonce.length_eq
  unfold maxAudienceLen at hle
  unfold nonceLen at hnonce
  simp only [List.length_cons, List.length_append, bigEndian_length, hnonce]
  omega

/-- What a successful issue puts into the token. -/
theorem issue_eq_ok_iff {ed : Ed25519} {issuer : CapabilityIssuer}
    {claims : CapabilityClaims} {token : String} :
    issuer.issue ed claims = .ok token ↔
      (∃ done, claims.validateShape claims.issuedAt.toNat
        issuer.maxLifetime = .ok done) ∧
      ∃ payload, claims.encode = .ok payload ∧
        String.ofList (tokenStart ++ Base64.encodeUrlDigits payload ++ '.' ::
          Base64.encodeUrlDigits
            (ed.sign issuer.seed (signingInput payload)).val) = token := by
  simp only [CapabilityIssuer.issue, bind_eq_ok, pure_eq_ok, exists_and_right]

theorem issue_wellFormed {ed : Ed25519} {issuer : CapabilityIssuer}
    {claims : CapabilityClaims} {token : String}
    (hissue : issuer.issue ed claims = .ok token) : WellFormed claims := by
  obtain ⟨⟨_, hshape⟩, _⟩ := issue_eq_ok_iff.mp hissue
  obtain ⟨haudience, _, hlifetime, _⟩ := validateShape_eq_ok_iff.mp hshape
  exact ⟨haudience.1, haudience.2, hlifetime⟩

/-- The conditions under which verified claims become a capability. -/
structure Admits (verifier : CapabilityVerifier) (claims : CapabilityClaims)
    (now : Nat) : Prop where
  audience : claims.audience = verifier.audience
  started : claims.issuedAt.toNat ≤
    saturatingAdd now verifier.clockSkew.asSecs
  unexpired : now - verifier.clockSkew.asSecs < claims.expiresAt.toNat
  positive : claims.issuedAt.toNat < claims.expiresAt.toNat
  bounded : claims.expiresAt.toNat - claims.issuedAt.toNat ≤
    verifier.maxLifetime.asSecs

/-- The capability a verifier makes of claims. -/
def grant (verifier : CapabilityVerifier) (claims : CapabilityClaims) :
    VerifiedCapability :=
  ⟨claims, claims.issuedAt.toNat - verifier.clockSkew.asSecs,
    saturatingAdd claims.expiresAt.toNat verifier.clockSkew.asSecs⟩

theorem checkClaims_eq_ok_iff {verifier : CapabilityVerifier}
    {claims : CapabilityClaims} {now : Nat} {verified : VerifiedCapability} :
    verifier.checkClaims claims now = .ok verified ↔
      Admits verifier claims now ∧ verified = grant verifier claims := by
  simp only [checkClaims, bind_eq_ok, require_eq_ok_iff, valueOr_eq_ok_iff,
    exists_and_left, exists_const, checkedSub, pure_eq_ok]
  constructor
  · rintro ⟨haudience, hstarted, hunexpired, lifetime, hlifetime, hpositive,
      hbounded, rfl⟩
    split at hlifetime
    · rw [Option.some.injEq] at hlifetime
      exact ⟨⟨haudience, hstarted, hunexpired, by omega, by omega⟩, rfl⟩
    · simp at hlifetime
  · rintro ⟨⟨haudience, hstarted, hunexpired, hpositive, hbounded⟩, rfl⟩
    refine ⟨haudience, hstarted, hunexpired, _, if_pos (by omega), by omega,
      hbounded, rfl⟩

theorem verifyForReplay_eq_ok_iff {ed : Ed25519}
    {verifier : CapabilityVerifier} {token : String} {now : Nat}
    {verified : VerifiedCapability} :
    verifier.verifyForReplay ed token now = .ok verified ↔
      ∃ payload signature claims,
        parseToken token = .ok (payload, signature) ∧
        ed.verify verifier.publicKey (signingInput payload) signature = true ∧
        CapabilityClaims.decode payload = .ok claims ∧
        Admits verifier claims now ∧ verified = grant verifier claims := by
  simp only [verifyForReplay, bind_eq_ok,
    require_eq_ok_iff, exists_and_left, exists_const, Prod.exists,
    checkClaims_eq_ok_iff]

/-- An issued token carries its encoded claims and their signature. -/
theorem parseToken_of_issue {ed : Ed25519} {issuer : CapabilityIssuer}
    {claims : CapabilityClaims} {token : String}
    (hissue : issuer.issue ed claims = .ok token) :
    ∃ payload, claims.encode = .ok payload ∧
      parseToken token =
        .ok (payload, (ed.sign issuer.seed (signingInput payload)).val) := by
  have hclaims := issue_wellFormed hissue
  obtain ⟨_, payload, hencode, rfl⟩ := issue_eq_ok_iff.mp hissue
  exact ⟨payload, hencode, parseToken_of_parts (encode_length hclaims hencode)
    (FixedBytes.length_eq _)⟩

/-- For a verifier with the issuer's key, an issued token stands for its
claims. -/
theorem verifyForReplay_of_issue {ed : Ed25519} {issuer : CapabilityIssuer}
    {verifier : CapabilityVerifier} {claims : CapabilityClaims}
    {token : String} (hissue : issuer.issue ed claims = .ok token)
    (hkey : verifier.publicKey = issuer.publicKey ed) (now : Nat) :
    verifier.verifyForReplay ed token now =
      verifier.checkClaims claims now := by
  obtain ⟨payload, hencode, hparse⟩ := parseToken_of_issue hissue
  have hsigned : ed.verify verifier.publicKey (signingInput payload)
      (ed.sign issuer.seed (signingInput payload)).val = true := by
    rw [hkey]
    exact ed.verify_sign issuer.seed _
  have hdecode := decode_of_encode (issue_wellFormed hissue) hencode
  simp only [verifyForReplay, hparse, hsigned, hdecode,
    require, if_true, bind, Except.bind]

end Shph.Edge
