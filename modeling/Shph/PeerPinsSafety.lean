/-
When pinning a peer is safe.  A command keeps the keys that are pinned and
adds its peer to both files or to neither exactly when it does not overwrite
other keys and does not fail after the peer was written to a file that did not
list it.
-/
import Shph.HandshakeHonest
import Shph.PeerPins

namespace Shph

section Pins

def ListsPeer (peers : List PeerConfig) (pin : AliasPin) : Prop :=
  ∃ entry ∈ peers, entry.aliasName = pin.aliasName ∧
    entry.pubkey = pin.pubkey ∧ entry.signPubkey = some pin.signPubkey

instance (peers : List PeerConfig) (pin : AliasPin) :
    Decidable (ListsPeer peers pin) :=
  inferInstanceAs (Decidable (∃ entry ∈ peers,
    entry.aliasName = pin.aliasName ∧ entry.pubkey = pin.pubkey ∧
      entry.signPubkey = some pin.signPubkey))

/-- The keys of a contact are these. -/
def Contact.HasKeys (contact : Contact) (pubkey : String)
    (signPubkey : Option String) : Prop :=
  contact.pubkeyB64 = pubkey ∧ contact.signPubkeyB64 = signPubkey

def Contacts.ListsPin (contacts : Contacts) (pin : AliasPin) : Prop :=
  ∃ contact ∈ contacts.get pin.aliasName,
    contact.HasKeys pin.pubkey (some pin.signPubkey)

/-- Every contact is still there with its keys. -/
def Contacts.KeptIn (before after : Contacts) : Prop :=
  ∀ key, ∀ contact ∈ before.get key, ∃ later ∈ after.get key,
    later.HasKeys contact.pubkeyB64 contact.signPubkeyB64

theorem Contacts.KeptIn.refl (contacts : Contacts) :
    contacts.KeptIn contacts :=
  fun _ contact hcontact => ⟨contact, hcontact, rfl, rfl⟩

theorem Contacts.KeptIn.trans {first second third : Contacts}
    (hfirst : first.KeptIn second) (hsecond : second.KeptIn third) :
    first.KeptIn third := by
  intro key contact hcontact
  obtain ⟨later, hlater, hkeys⟩ := hfirst key contact hcontact
  obtain ⟨last, hlast, hlastKeys⟩ := hsecond key later hlater
  rw [hkeys.1, hkeys.2] at hlastKeys
  exact ⟨last, hlast, hlastKeys⟩

/-- Adding a contact keeps the others, so only the one under its name counts. -/
theorem keptIn_set_iff (contacts : Contacts) (key : String)
    (contact : Contact) :
    contacts.KeptIn (contacts.set key contact) ↔
      ∀ old ∈ contacts.get key,
        contact.HasKeys old.pubkeyB64 old.signPubkeyB64 := by
  constructor
  · intro hkept old hold
    obtain ⟨later, hlater, hkeys⟩ := hkept key old hold
    rw [KeyTable.get_set_self, Option.mem_some_iff] at hlater
    rw [hlater]
    exact hkeys
  · intro hkeys other old hold
    by_cases hsame : other = key
    · subst hsame
      exact ⟨contact, KeyTable.get_set_self, hkeys old hold⟩
    · refine ⟨old, ?_, rfl, rfl⟩
      rw [KeyTable.get_set_of_ne hsame]
      exact hold

end Pins

namespace Workspace

variable {prims : Primitives}

def peers (workspace : Workspace prims) : List PeerConfig :=
  match workspace.config with
  | some config => config.peers
  | none => []

def contacts (workspace : Workspace prims) : Contacts :=
  match workspace.keystore with
  | some keystore => keystore.contacts
  | none => .empty

/-- The peer is in both files after a success, and where it was before after
an error. -/
def AllOrNothing (before : Workspace prims) (pin : AliasPin)
    (outcome : Except ShphError Unit × Workspace prims) : Prop :=
  match outcome.1 with
  | .ok () =>
      ListsPeer outcome.2.peers pin ∧ outcome.2.contacts.ListsPin pin
  | .error _ =>
      (ListsPeer outcome.2.peers pin ↔ ListsPeer before.peers pin) ∧
        (outcome.2.contacts.ListsPin pin ↔ before.contacts.ListsPin pin)

/-- What a command should do to a workspace. -/
def PinsSafely (before : Workspace prims) (pin : AliasPin)
    (outcome : Except ShphError Unit × Workspace prims) : Prop :=
  before.contacts.KeptIn outcome.2.contacts ∧
    before.AllOrNothing pin outcome

theorem pinsSafely_error {before after : Workspace prims} {pin : AliasPin}
    (error : ShphError) (hcontacts : after.contacts = before.contacts) :
    before.PinsSafely pin (.error error, after) ↔
      (ListsPeer after.peers pin ↔ ListsPeer before.peers pin) := by
  simp only [PinsSafely, AllOrNothing, hcontacts, iff_self, and_true]
  constructor
  · exact And.right
  · exact fun hpeers => ⟨.refl _, hpeers⟩

/-- A failure that leaves the peer in the configuration is not safe if it was
not there. -/
theorem not_pinsSafely {before : Workspace prims} (after : Workspace prims)
    {pin : AliasPin} (error : ShphError)
    (hbefore : ¬ ListsPeer before.peers pin)
    (hafter : ListsPeer after.peers pin) :
    ¬ before.PinsSafely pin (.error error, after) :=
  fun hsafe => hbefore (hsafe.2.1.mp hafter)

end Workspace

section AddPeer

variable {prims : Primitives} {envPassword : Option String}
  {faults : PinFaults} {peer : AddPeer} {workspace : Workspace prims}

/-- Once the configuration is replaced, nothing fails and no other keys are
pinned under the alias. -/
def AddPeer.Safe (envPassword : Option String) (faults : PinFaults)
    (peer : AddPeer) (workspace : Workspace prims) : Prop :=
  ∀ config, peer.accept faults workspace = .ok config →
    (∃ error, faults.saveConfig = .refused error) ∨
    (faults.saveConfig = .written ∧
      (AddPeer.openKeystore envPassword faults workspace).isOk = true ∧
      faults.saveKeystore = .written ∧
      ∀ old ∈ workspace.contacts.get peer.aliasName,
        peer.contact.HasKeys old.pubkeyB64 old.signPubkeyB64)

theorem accept_eq_ok {config : PeerFile}
    (haccept : peer.accept faults workspace = .ok config) :
    config.peers = workspace.peers ∧
      ¬ ListsPeer workspace.peers peer.pin := by
  simp only [AddPeer.accept, bind_eq_ok_iff, ensure_eq_ok_iff, pure_eq_ok_iff]
    at haccept
  obtain ⟨-, -, -, -, -, -, -, -, loaded, hload, -, hfresh, rfl⟩ := haccept
  have hpeers : loaded.peers = workspace.peers := by
    rw [AddPeer.openConfig] at hload
    rw [Workspace.peers]
    cases hconfig : workspace.config with
    | some config =>
        rw [hconfig] at hload
        dsimp only at hload
        rw [loadPeerFile] at hload
        split at hload
        · cases hload
        · exact congrArg PeerFile.peers (Except.ok.inj hload).symm
    | none =>
        rw [hconfig] at hload
        exact congrArg PeerFile.peers (Except.ok.inj hload).symm
  refine ⟨hpeers, ?_⟩
  rintro ⟨entry, hentry, halias, -⟩
  rw [← hpeers] at hentry
  exact hfresh entry hentry halias

theorem openKeystore_contacts {keystore : KeyStore prims}
    (hopen : AddPeer.openKeystore envPassword faults workspace =
      .ok keystore) :
    keystore.contacts = workspace.contacts := by
  rw [AddPeer.openKeystore] at hopen
  rw [Workspace.contacts]
  cases hstored : workspace.keystore with
  | some stored =>
      rw [hstored] at hopen
      dsimp only at hopen
      rw [loadKeystoreFile] at hopen
      split at hopen
      · cases hopen
      · rw [← Except.ok.inj hopen]
  | none =>
      rw [hstored] at hopen
      simp only [newKeystore, KeyStore.new, bind_eq_ok_iff, pure_eq_ok_iff]
        at hopen
      obtain ⟨_, -, _, -, rfl⟩ := hopen
      rfl

/-- The peer is in a list that ends with it. -/
theorem listsPeer_append (peers : List PeerConfig) (endpoint : String)
    (pin : AliasPin) :
    ListsPeer (peers ++ [⟨pin.aliasName, endpoint, pin.pubkey,
      some pin.signPubkey⟩]) pin :=
  ⟨_, List.mem_append_right _ List.mem_cons_self, rfl, rfl, rfl⟩

theorem listsPin_set (contacts : Contacts) (endpoint : ControlPlane.Endpoint)
    (pin : AliasPin) :
    Contacts.ListsPin (contacts.set pin.aliasName ⟨pin.aliasName, endpoint,
      pin.pubkey, some pin.signPubkey⟩) pin :=
  ⟨_, KeyTable.get_set_self, rfl, rfl⟩

/-- The second half of the command, once the configuration lists the peer. -/
theorem saveContact_pinsSafely_iff {config : PeerFile}
    (hfresh : ¬ ListsPeer workspace.peers peer.pin)
    (hlists : ListsPeer config.peers peer.pin) :
    workspace.PinsSafely peer.pin
        (match AddPeer.openKeystore envPassword faults workspace with
        | .error error => (.error error, ⟨some config, workspace.keystore⟩)
        | .ok keystore => (faults.saveKeystore.result, ⟨some config,
            faults.saveKeystore.file workspace.keystore
              (keystore.addContact peer.contact)⟩)) ↔
      (AddPeer.openKeystore envPassword faults workspace).isOk = true ∧
        faults.saveKeystore = .written ∧
        ∀ old ∈ workspace.contacts.get peer.aliasName,
          peer.contact.HasKeys old.pubkeyB64 old.signPubkeyB64 := by
  cases hopen : AddPeer.openKeystore envPassword faults workspace with
  | error error =>
      have hbad := Workspace.not_pinsSafely
        ⟨some config, workspace.keystore⟩ error hfresh hlists
      simpa [Except.isOk, Except.toBool] using hbad
  | ok keystore =>
      have hcontacts := openKeystore_contacts hopen
      cases hsave : faults.saveKeystore with
      | refused error =>
          have hbad := Workspace.not_pinsSafely
            ⟨some config, workspace.keystore⟩ error hfresh hlists
          simpa [SaveOutcome.file, SaveOutcome.result] using hbad
      | unsynced error =>
          have hbad := Workspace.not_pinsSafely
            ⟨some config, some (keystore.addContact peer.contact)⟩ error
            hfresh hlists
          simpa [SaveOutcome.file, SaveOutcome.result] using hbad
      | written =>
          have hlisted := listsPin_set keystore.contacts
            ⟨peer.host, peer.port⟩ peer.pin
          have hkept := keptIn_set_iff keystore.contacts peer.aliasName
            peer.contact
          rw [hcontacts] at hkept hlisted
          simp only [Except.isOk, Except.toBool, true_and, ← hkept]
          constructor
          · intro hsafe
            have hsame := hsafe.1
            simp only [SaveOutcome.file, Workspace.contacts,
              KeyStore.addContact, hcontacts] at hsame
            exact hsame
          · intro hsame
            refine ⟨?_, hlists, ?_⟩
            · simp only [SaveOutcome.file, Workspace.contacts,
                KeyStore.addContact, hcontacts]
              exact hsame
            · simp only [SaveOutcome.file, Workspace.contacts,
                KeyStore.addContact, hcontacts]
              exact hlisted

theorem handleAddPeer_pinsSafely_iff :
    workspace.PinsSafely peer.pin
        (handleAddPeer envPassword faults peer workspace) ↔
      peer.Safe envPassword faults workspace := by
  unfold AddPeer.Safe
  cases haccept : peer.accept faults workspace with
  | error error =>
      simp [handleAddPeer, haccept, Workspace.pinsSafely_error]
  | ok config =>
      obtain ⟨hpeers, hfresh⟩ := accept_eq_ok haccept
      have hlists := listsPeer_append config.peers
        (formatEndpoint peer.host peer.port) peer.pin
      simp only [handleAddPeer, haccept, Except.ok.injEq, forall_eq']
      cases hsave : faults.saveConfig with
      | refused error =>
          simp [SaveOutcome.file, SaveOutcome.result,
            Workspace.pinsSafely_error]
      | unsynced error =>
          have hbad := Workspace.not_pinsSafely
            ⟨some ⟨config.peers ++ [peer.peerConfig]⟩, workspace.keystore⟩
            error hfresh hlists
          simpa [SaveOutcome.file, SaveOutcome.result] using hbad
      | written =>
          have hopened : AddPeer.openKeystore envPassword faults
              { workspace with
                config := some ⟨config.peers ++ [peer.peerConfig]⟩ } =
              AddPeer.openKeystore envPassword faults workspace := rfl
          simp only [SaveOutcome.file, SaveOutcome.result, hopened,
            reduceCtorEq, exists_false, true_and, false_or]
          exact saveContact_pinsSafely_iff hfresh hlists

end AddPeer

section Join

variable {prims : Primitives} {envPassword : Option String}
  {faults : PinFaults} {ticket : JoinPeer} {workspace : Workspace prims}

/-- The two saves put the peer into no file that did not list it and then
fail. -/
def PinFaults.SavesSafely (faults : PinFaults) (inPeers inContacts : Prop) :
    Prop :=
  (∃ error, faults.saveConfig = .refused error) ∨
  (faults.saveConfig = .written ∧ faults.saveKeystore = .written) ∨
  (inPeers ∧ (faults.saveConfig ≠ .written ∨
    (∃ error, faults.saveKeystore = .refused error) ∨ inContacts))

/-- What has to hold once the key store is there.  A configuration that is
missing is made from the contacts first; if the peer is among them, nothing
fails from then on. -/
def JoinPeer.SafeFrom (faults : PinFaults) (ticket : JoinPeer)
    (workspace : Workspace prims) (keystore : KeyStore prims) : Prop :=
  match workspace.config with
  | some config => faults.loadConfig = none →
      (ensurePeerPin config keystore ticket.pin ticket.endpoint).isOk = true →
      faults.SavesSafely (ListsPeer config.peers ticket.pin)
        (workspace.contacts.ListsPin ticket.pin)
  | none =>
      let pinned := ensurePeerPin ⟨toPeerConfigs keystore⟩ keystore
        ticket.pin ticket.endpoint
      (∃ error, faults.createConfig = .refused error) ∨
      if ListsPeer (toPeerConfigs keystore) ticket.pin then
        faults.createConfig = .written ∧ pinned.isOk = true ∧
          faults.saveConfig = .written ∧ faults.saveKeystore = .written
      else faults.createConfig = .written → pinned.isOk = true →
        faults.SavesSafely False (workspace.contacts.ListsPin ticket.pin)

/-- The host is put into no file that did not list it before something
fails. -/
def JoinPeer.Safe (envPassword : Option String) (faults : PinFaults)
    (ticket : JoinPeer) (workspace : Workspace prims) : Prop :=
  ∀ keystore, (ensureKeystore envPassword faults workspace).1 = .ok keystore →
    ticket.SafeFrom faults workspace keystore

theorem pinContact_eq_ok {keystore pinned : KeyStore prims} {pin : AliasPin}
    {endpoint : String}
    (hpin : pinContact keystore pin endpoint = .ok pinned) :
    pinned.contacts.ListsPin pin ∧
      keystore.contacts.KeptIn pinned.contacts := by
  unfold pinContact at hpin
  split at hpin
  · rename_i existing hexisting
    simp only [bind_eq_ok_iff, ensure_eq_ok_iff, pure_eq_ok_iff] at hpin
    obtain ⟨-, ⟨hpubkey, hsign, -⟩, rfl⟩ := hpin
    exact ⟨⟨existing, hexisting, hpubkey, hsign⟩, .refl _⟩
  · rename_i hnone
    split at hpin
    · simp at hpin
    · rename_i parsed hparsed
      rw [← Except.ok.inj hpin]
      refine ⟨listsPin_set _ _ _, ?_⟩
      rw [KeyStore.addContact, keptIn_set_iff]
      intro old hold
      rw [hnone] at hold
      simp at hold

theorem pinPeerConfig_eq_ok {config pinned : PeerFile} {pin : AliasPin}
    {endpoint : String}
    (hpin : pinPeerConfig config pin endpoint = .ok pinned) :
    ListsPeer pinned.peers pin := by
  unfold pinPeerConfig at hpin
  split at hpin
  · rename_i existing hexisting
    simp only [bind_eq_ok_iff, ensure_eq_ok_iff, pure_eq_ok_iff] at hpin
    obtain ⟨-, ⟨hpubkey, hsign, -⟩, rfl⟩ := hpin
    have halias := List.find?_some hexisting
    exact ⟨existing, List.mem_of_find?_eq_some hexisting,
      by simpa using halias, hpubkey, hsign⟩
  · rw [← Except.ok.inj hpin]
    exact listsPeer_append _ _ _

theorem ensurePeerPin_eq_ok {config : PeerFile} {keystore : KeyStore prims}
    {pin : AliasPin} {endpoint : String} {pinned : PeerFile × KeyStore prims}
    (hpin : ensurePeerPin config keystore pin endpoint = .ok pinned) :
    ListsPeer pinned.1.peers pin ∧ pinned.2.contacts.ListsPin pin ∧
      keystore.contacts.KeptIn pinned.2.contacts := by
  simp only [ensurePeerPin, bind_eq_ok_iff, pure_eq_ok_iff] at hpin
  obtain ⟨keystore, hkeystore, config, hconfig, rfl⟩ := hpin
  obtain ⟨hlists, hkept⟩ := pinContact_eq_ok hkeystore
  exact ⟨pinPeerConfig_eq_ok hconfig, hlists, hkept⟩

/-- The key store is the one in the workspace, or a new one without
contacts. -/
theorem ensureKeystore_spec (envPassword : Option String)
    (faults : PinFaults) (workspace : Workspace prims) :
    (ensureKeystore envPassword faults workspace).2.config =
        workspace.config ∧
      (ensureKeystore envPassword faults workspace).2.contacts =
        workspace.contacts ∧
      ∀ keystore,
        (ensureKeystore envPassword faults workspace).1 = .ok keystore →
          keystore.contacts = workspace.contacts := by
  unfold ensureKeystore Workspace.contacts
  cases hstored : workspace.keystore with
  | some stored =>
      refine ⟨rfl, by rw [hstored], fun keystore hload => ?_⟩
      simp only [loadKeystoreFile] at hload
      split at hload
      · simp at hload
      · rw [← Except.ok.inj hload]
  | none =>
      cases hnew : newKeystore envPassword faults prims with
      | error error => exact ⟨rfl, by rw [hstored], by simp⟩
      | ok new =>
          have hempty : new.contacts = .empty := by
            simp only [newKeystore, KeyStore.new, bind_eq_ok_iff,
              pure_eq_ok_iff] at hnew
            obtain ⟨_, -, _, -, rfl⟩ := hnew
            rfl
          refine ⟨rfl, ?_, fun keystore hcreate => ?_⟩
          · cases faults.createKeystore <;>
              simp [SaveOutcome.file, hempty]
          · cases houtcome : faults.createKeystore with
            | written =>
                rw [houtcome] at hcreate
                rw [← Except.ok.inj hcreate, hempty]
            | refused error =>
                rw [houtcome] at hcreate
                cases hcreate
            | unsynced error =>
                rw [houtcome] at hcreate
                cases hcreate

/-- What the two saves do to a workspace that lists the peer in the
configuration exactly if it did so before. -/
theorem savePinned_pinsSafely_iff {before now : Workspace prims}
    {pin : AliasPin} {config : PeerFile} {keystore : KeyStore prims}
    (hcontacts : now.contacts = before.contacts)
    (hlists : ListsPeer config.peers pin)
    (hpinned : keystore.contacts.ListsPin pin)
    (hkept : before.contacts.KeptIn keystore.contacts)
    (hpeers : ListsPeer now.peers pin ↔ ListsPeer before.peers pin) :
    before.PinsSafely pin (savePinned faults config keystore now) ↔
      faults.SavesSafely (ListsPeer before.peers pin)
        (before.contacts.ListsPin pin) := by
  unfold savePinned PinFaults.SavesSafely
  cases hsave : faults.saveConfig with
  | refused error =>
      simp only [SaveOutcome.file, SaveOutcome.result]
      rw [Workspace.pinsSafely_error error (by exact hcontacts)]
      exact ⟨fun _ => .inl ⟨error, rfl⟩, fun _ => hpeers⟩
  | unsynced error =>
      simp only [SaveOutcome.file, SaveOutcome.result]
      rw [Workspace.pinsSafely_error error (by exact hcontacts)]
      simp [Workspace.peers, hlists]
  | written =>
      cases hkeystore : faults.saveKeystore with
      | written =>
          have hsafe : before.PinsSafely pin
              (.ok (), ⟨some config, some keystore⟩) :=
            ⟨hkept, hlists, hpinned⟩
          simpa [SaveOutcome.file, SaveOutcome.result] using hsafe
      | refused error =>
          simp only [SaveOutcome.file, SaveOutcome.result]
          rw [Workspace.pinsSafely_error error (by exact hcontacts)]
          simp [Workspace.peers, hlists]
      | unsynced error =>
          have hsafe : before.PinsSafely pin
              (.error error, ⟨some config, some keystore⟩) ↔
                ListsPeer before.peers pin ∧ before.contacts.ListsPin pin := by
            change before.contacts.KeptIn keystore.contacts ∧
              (ListsPeer config.peers pin ↔ _) ∧
              (keystore.contacts.ListsPin pin ↔ _) ↔ _
            simp [hkept, hlists, hpinned]
          simpa [SaveOutcome.file, SaveOutcome.result] using hsafe

/-- The same if the configuration was made just before and lists the peer. -/
theorem savePinned_created_iff {before now : Workspace prims}
    {pin : AliasPin} {config : PeerFile} {keystore : KeyStore prims}
    (hlists : ListsPeer config.peers pin)
    (hpinned : keystore.contacts.ListsPin pin)
    (hkept : before.contacts.KeptIn keystore.contacts)
    (hbefore : ¬ ListsPeer before.peers pin)
    (hnow : ListsPeer now.peers pin) :
    before.PinsSafely pin (savePinned faults config keystore now) ↔
      faults.saveConfig = .written ∧ faults.saveKeystore = .written := by
  have hbad : ∀ error keystore, ¬ before.PinsSafely pin
      (.error error, ⟨some config, keystore⟩) := fun error _ =>
    Workspace.not_pinsSafely _ error hbefore hlists
  unfold savePinned
  cases hsave : faults.saveConfig with
  | refused error =>
      have hsame := Workspace.not_pinsSafely now error hbefore hnow
      simpa [SaveOutcome.file, SaveOutcome.result] using hsame
  | unsynced error =>
      simpa [SaveOutcome.file, SaveOutcome.result] using hbad error _
  | written =>
      cases hkeystore : faults.saveKeystore with
      | written =>
          have hsafe : before.PinsSafely pin
              (.ok (), ⟨some config, some keystore⟩) :=
            ⟨hkept, hlists, hpinned⟩
          simpa [SaveOutcome.file, SaveOutcome.result] using hsafe
      | refused error =>
          simpa [SaveOutcome.file, SaveOutcome.result] using hbad error _
      | unsynced error =>
          simpa [SaveOutcome.file, SaveOutcome.result] using hbad error _

/-- The pins and the saves on a configuration that was there. -/
theorem pinLoaded_pinsSafely_iff {before now : Workspace prims}
    {pin : AliasPin} {endpoint : String} {config : PeerFile}
    {keystore : KeyStore prims}
    (hcontacts : now.contacts = before.contacts)
    (hkeystore : keystore.contacts = before.contacts)
    (hpeers : ListsPeer now.peers pin ↔ ListsPeer before.peers pin) :
    before.PinsSafely pin
        (match ensurePeerPin config keystore pin endpoint with
        | .error error => (.error error, now)
        | .ok (config, keystore) =>
            savePinned faults config keystore now) ↔
      ((ensurePeerPin config keystore pin endpoint).isOk = true →
        faults.SavesSafely (ListsPeer before.peers pin)
          (before.contacts.ListsPin pin)) := by
  cases hpin : ensurePeerPin config keystore pin endpoint with
  | error error =>
      dsimp only
      rw [Workspace.pinsSafely_error error hcontacts]
      simp [hpeers, Except.isOk, Except.toBool]
  | ok pinned =>
      obtain ⟨hlists, hpinned, hkept⟩ := ensurePeerPin_eq_ok hpin
      rw [hkeystore] at hkept
      dsimp only
      rw [savePinned_pinsSafely_iff hcontacts hlists hpinned hkept hpeers]
      simp [Except.isOk, Except.toBool]

theorem pinCreated_pinsSafely_iff {before now : Workspace prims}
    {pin : AliasPin} {endpoint : String} {config : PeerFile}
    {keystore : KeyStore prims}
    (hkeystore : keystore.contacts = before.contacts)
    (hbefore : ¬ ListsPeer before.peers pin)
    (hnow : ListsPeer now.peers pin) :
    before.PinsSafely pin
        (match ensurePeerPin config keystore pin endpoint with
        | .error error => (.error error, now)
        | .ok (config, keystore) =>
            savePinned faults config keystore now) ↔
      (ensurePeerPin config keystore pin endpoint).isOk = true ∧
        faults.saveConfig = .written ∧ faults.saveKeystore = .written := by
  cases hpin : ensurePeerPin config keystore pin endpoint with
  | error error =>
      have hbad := Workspace.not_pinsSafely now error hbefore hnow
      simpa [Except.isOk, Except.toBool] using hbad
  | ok pinned =>
      obtain ⟨hlists, hpinned, hkept⟩ := ensurePeerPin_eq_ok hpin
      rw [hkeystore] at hkept
      dsimp only
      rw [savePinned_created_iff hlists hpinned hkept hbefore hnow]
      simp [Except.isOk, Except.toBool]

/-- The rest of a join, once the key store is there. -/
theorem joinOpened_pinsSafely_iff {now : Workspace prims}
    {keystore : KeyStore prims} (hconfig : now.config = workspace.config)
    (hcontacts : now.contacts = workspace.contacts)
    (hkeystore : keystore.contacts = workspace.contacts) :
    workspace.PinsSafely ticket.pin
        (match (match ensureConfig faults keystore now with
          | (.error error, now) => (.error error, now)
          | (.ok config, now) => (.ok (config, keystore), now) :
            Except ShphError (PeerFile × KeyStore prims) × _) with
        | (.error error, now) => (.error error, now)
        | (.ok (config, keystore), now) =>
            match ensurePeerPin config keystore ticket.pin ticket.endpoint with
            | .error error => (.error error, now)
            | .ok (config, keystore) =>
                savePinned faults config keystore now) ↔
      ticket.SafeFrom faults workspace keystore := by
  unfold JoinPeer.SafeFrom
  cases hstored : workspace.config with
  | some config =>
      have hpeers : workspace.peers = config.peers := by
        rw [Workspace.peers, hstored]
      have hsame : now.peers = workspace.peers := by
        rw [hpeers, Workspace.peers, hconfig, hstored]
      simp only [ensureConfig, hconfig, hstored, loadPeerFile]
      cases hload : faults.loadConfig with
      | some error =>
          dsimp only
          rw [Workspace.pinsSafely_error error hcontacts, hsame]
          simp
      | none =>
          dsimp only
          rw [pinLoaded_pinsSafely_iff hcontacts hkeystore (by rw [hsame]),
            hpeers]
          simp
  | none =>
      have hbefore : ¬ ListsPeer workspace.peers ticket.pin := by
        rw [Workspace.peers, hstored]
        rintro ⟨entry, hentry, -⟩
        simp at hentry
      have hmade : ∀ config, (Workspace.mk config now.keystore).contacts =
          workspace.contacts := fun _ => hcontacts
      simp only [ensureConfig, hconfig, hstored]
      cases hcreate : faults.createConfig with
      | refused error =>
          simp only [SaveOutcome.result, SaveOutcome.file, Except.map]
          rw [Workspace.pinsSafely_error error (hmade none)]
          have hnone : ¬ ListsPeer (Workspace.mk none now.keystore).peers
              ticket.pin := by
            rintro ⟨entry, hentry, -⟩
            simp [Workspace.peers] at hentry
          simp [hnone, hbefore]
      | unsynced error =>
          simp only [SaveOutcome.result, SaveOutcome.file, Except.map]
          rw [Workspace.pinsSafely_error error (hmade _)]
          simp [Workspace.peers, hstored, ListsPeer]
      | written =>
          simp only [SaveOutcome.result, SaveOutcome.file, Except.map]
          let created : Workspace prims :=
            ⟨some ⟨toPeerConfigs keystore⟩, now.keystore⟩
          by_cases hlisted : ListsPeer created.peers ticket.pin
          · have hmembers : ListsPeer (toPeerConfigs keystore) ticket.pin :=
              hlisted
            rw [pinCreated_pinsSafely_iff hkeystore hbefore hlisted]
            simp [hmembers]
          · have hmembers : ¬ ListsPeer (toPeerConfigs keystore) ticket.pin :=
              hlisted
            rw [pinLoaded_pinsSafely_iff (hmade created.config) hkeystore
              (iff_of_false hlisted hbefore)]
            simp [hmembers, hbefore]

theorem handleJoin_pinsSafely_iff :
    workspace.PinsSafely ticket.pin
        (handleJoin envPassword faults ticket workspace) ↔
      ticket.Safe envPassword faults workspace := by
  obtain ⟨hconfig, hcontacts, hopened⟩ := ensureKeystore_spec
    envPassword faults workspace
  unfold handleJoin ensureWorkspace JoinPeer.Safe
  generalize ensureKeystore envPassword faults workspace = opened at *
  obtain ⟨result, now⟩ := opened
  change now.config = workspace.config at hconfig
  change now.contacts = workspace.contacts at hcontacts
  cases result with
  | error error =>
      have hpeers : now.peers = workspace.peers := by
        rw [Workspace.peers, Workspace.peers, hconfig]
      dsimp only
      rw [Workspace.pinsSafely_error error hcontacts, hpeers]
      simp
  | ok keystore =>
      simp only [Except.ok.injEq, forall_eq']
      exact joinOpened_pinsSafely_iff hconfig hcontacts (hopened keystore rfl)

end Join

section Runs

open StatefulRun

variable {prims : Primitives} (envPassword : Option String)

inductive PinCommand where
  | addPeer (peer : AddPeer)
  | join (ticket : JoinPeer)
deriving Repr, DecidableEq

def PinCommand.pin : PinCommand → AliasPin
  | .addPeer peer => peer.pin
  | .join ticket => ticket.pin

/-- A command and what the system does with its calls. -/
structure PinStep where
  command : PinCommand
  faults : PinFaults

def pinStep (workspace : Workspace prims) (step : PinStep) :
    Except ShphError Unit × Workspace prims :=
  match step.command with
  | .addPeer peer => handleAddPeer envPassword step.faults peer workspace
  | .join ticket => handleJoin envPassword step.faults ticket workspace

def PinStep.Safe (step : PinStep) (workspace : Workspace prims) : Prop :=
  match step.command with
  | .addPeer peer => peer.Safe envPassword step.faults workspace
  | .join ticket => ticket.Safe envPassword step.faults workspace

theorem pinStep_pinsSafely_iff (workspace : Workspace prims)
    (step : PinStep) :
    workspace.PinsSafely step.command.pin
        (pinStep envPassword workspace step) ↔
      step.Safe envPassword workspace := by
  obtain ⟨command, faults⟩ := step
  cases command with
  | addPeer peer => exact handleAddPeer_pinsSafely_iff
  | join ticket => exact handleJoin_pinsSafely_iff

/-- Steps that keep the pins keep them over the whole run. -/
theorem contacts_kept_final (start : Workspace prims) (steps : List PinStep)
    (hkept : ∀ front step back, steps = front ++ step :: back →
      (final (pinStep envPassword) start front).contacts.KeptIn
        (pinStep envPassword (final (pinStep envPassword) start front)
          step).2.contacts) :
    start.contacts.KeptIn
      (final (pinStep envPassword) start steps).contacts := by
  induction steps using List.reverseRecOn with
  | nil => exact .refl _
  | append_singleton steps step ih =>
      have hbefore := ih fun front other back hsplit =>
        hkept front other (back ++ [step]) (by rw [hsplit]; simp)
      rw [final_snoc]
      exact hbefore.trans (hkept steps step [] rfl)

/-- In a run every command keeps the pins and adds its peer to both files or
to neither if and only if every command is safe in the state it finds. -/
theorem peer_pins_hold_iff (start : Workspace prims) (steps : List PinStep) :
    ((∀ front step back, steps = front ++ step :: back →
        (final (pinStep envPassword) start front).PinsSafely step.command.pin
          (pinStep envPassword (final (pinStep envPassword) start front)
            step)) ∧
      ∀ front back, steps = front ++ back → start.contacts.KeptIn
        (final (pinStep envPassword) start front).contacts) ↔
      ∀ front step back, steps = front ++ step :: back →
        step.Safe envPassword (final (pinStep envPassword) start front) := by
  constructor
  · rintro ⟨hsteps, -⟩ front step back hsplit
    exact (pinStep_pinsSafely_iff _ _ _).mp (hsteps front step back hsplit)
  · intro hsafe
    have hsteps : ∀ front step back, steps = front ++ step :: back →
        (final (pinStep envPassword) start front).PinsSafely step.command.pin
          (pinStep envPassword (final (pinStep envPassword) start front)
            step) :=
      fun front step back hsplit =>
        (pinStep_pinsSafely_iff _ _ _).mpr (hsafe front step back hsplit)
    refine ⟨hsteps, fun front back hfront => ?_⟩
    apply contacts_kept_final
    intro first step rest hsplit
    exact (hsteps first step (rest ++ back) (by rw [hfront, hsplit]; simp)).1

end Runs

namespace PeerPinsWitness

open HandshakeWitness

def keyText (byte : UInt8) : String := Base64.encode (seed byte).val

/-- The system refuses nothing. -/
def noFaults : PinFaults where
  loadConfig := none
  createConfig := .written
  saveConfig := .written
  loadKeystore := none
  dhSeed := some (seed 1)
  signSeed := some (seed 2)
  createKeystore := .written
  saveKeystore := .written

def bob : Contact :=
  ⟨"bob", ⟨"192.0.2.7", 9000⟩, keyText 3, some (keyText 4)⟩

/-- The key store pins a peer that the configuration does not list. -/
def pinned : Workspace primitives where
  config := some ⟨[]⟩
  keystore := some ⟨.fromSeeds primitives (seed 1) (seed 2),
    KeyTable.empty.set "bob" bob, ⟨none⟩⟩

def fresh : Workspace primitives where
  config := some ⟨[]⟩
  keystore := some ⟨.fromSeeds primitives (seed 1) (seed 2), .empty, ⟨none⟩⟩

/-- Another key under the same alias. -/
def replaceBob : AddPeer :=
  ⟨"bob", "192.0.2.8", 9000, keyText 5, keyText 6⟩

/-- The disk is full when the key store is saved. -/
def diskFull : PinFaults :=
  { noFaults with saveKeystore := .refused (.io .other) }

theorem accept_replaceBob (faults : PinFaults) (hload : faults.loadConfig = none)
    (peers : List PeerConfig) (keystore : Option (KeyStore primitives)) :
    replaceBob.accept faults ⟨some ⟨peers⟩, keystore⟩ =
      if ∀ entry ∈ peers, entry.aliasName ≠ replaceBob.aliasName then
        .ok ⟨peers⟩
      else .error (.invalidArgument "peer alias already exists") := by
  have hblank : ensure (¬ isBlank replaceBob.aliasName)
      (.invalidArgument "alias cannot be empty") = .ok () := by decide
  have hport : ensure (replaceBob.port ≠ 0)
      (.invalidArgument "port must be > 0") = .ok () := by decide
  have hkey : ∀ byte label,
      validatePubkeyB64Named (keyText byte) label = .ok () := by
    intro byte label
    simp [validatePubkeyB64Named, keyText, bind_eq_ok_iff,
      ByteCodec.FixedBytes.length_eq]
  have hpubkey : validatePubkeyB64 replaceBob.pubkeyB64 = .ok () := hkey 5 _
  have hsign : validatePubkeyB64Named replaceBob.signPubkeyB64 "sign_pubkey" =
      .ok () := hkey 6 _
  have hopen : AddPeer.openConfig faults
      (⟨some ⟨peers⟩, keystore⟩ : Workspace primitives) = .ok ⟨peers⟩ := by
    simp only [AddPeer.openConfig, loadPeerFile, hload]
  simp only [AddPeer.accept, hblank, hport, hpubkey, hsign, hopen, bind,
    Except.bind, pure, Except.pure]
  unfold ensure
  by_cases hfree : ∀ entry ∈ peers, entry.aliasName ≠ replaceBob.aliasName
  · rw [if_pos hfree, if_pos hfree]
  · rw [if_neg hfree, if_neg hfree]

/-- Adding a peer replaces the keys that are pinned for its alias, and a
failure to save the key store leaves the peer in the configuration alone, from
where it can not be added again. -/
theorem add_peer_replaces_pin :
    (pinStep none pinned ⟨.addPeer replaceBob, noFaults⟩).1 = .ok () ∧
      ¬ pinned.PinsSafely replaceBob.pin
        (pinStep none pinned ⟨.addPeer replaceBob, noFaults⟩) ∧
      ¬ fresh.PinsSafely replaceBob.pin
        (pinStep none fresh ⟨.addPeer replaceBob, diskFull⟩) ∧
      (pinStep none
        (pinStep none fresh ⟨.addPeer replaceBob, diskFull⟩).2
        ⟨.addPeer replaceBob, noFaults⟩).1 =
          .error (.invalidArgument "peer alias already exists") := by
  have haccept := accept_replaceBob noFaults rfl [] pinned.keystore
  have hfull := accept_replaceBob diskFull rfl [] fresh.keystore
  have hlisted := accept_replaceBob noFaults rfl [replaceBob.peerConfig]
    fresh.keystore
  refine ⟨?_, ?_, ?_, ?_⟩
  · simp only [pinStep, handleAddPeer, pinned] at haccept ⊢
    rw [haccept]
    rfl
  · intro hsafe
    have hconditions := handleAddPeer_pinsSafely_iff.mp hsafe _ haccept
    obtain ⟨error, hrefused⟩ | ⟨-, -, -, hkeys⟩ := hconditions
    · cases hrefused
    · have hsame := (hkeys bob KeyTable.get_set_self).1
      revert hsame
      decide
  · intro hsafe
    have hconditions := handleAddPeer_pinsSafely_iff.mp hsafe _ hfull
    obtain ⟨error, hrefused⟩ | ⟨-, -, hwritten, -⟩ := hconditions
    · cases hrefused
    · cases hwritten
  · have hafter : (pinStep none fresh ⟨.addPeer replaceBob, diskFull⟩).2 =
        ⟨some ⟨[replaceBob.peerConfig]⟩, fresh.keystore⟩ := by
      simp only [pinStep, handleAddPeer, fresh] at hfull ⊢
      rw [hfull]
      rfl
    rw [hafter]
    simp only [pinStep, handleAddPeer]
    rw [hlisted]
    rfl

end PeerPinsWitness

end Shph
