/-
What a saved key store gives back.  Everything a successful save wrote is read
again with the same password, keys and contacts alike, as long as the file
stays under the limit that only loading checks; its size is a function of the
contacts and of whether there is a password.
-/
import Shph.HandshakeHonest
import Shph.KeyStore

namespace Shph

open ByteCodec Decimal JsonLayout KeyStore
section Sizes

def optionBytes : Option String → Nat
  | none => 4
  | some text => quoteBytes text

/-- How many bytes a contact takes as an object at this depth. -/
def Contact.bytes (contact : Contact) (layout : Layout) (depth : Nat) : Nat :=
  objectBytes layout depth
    [("alias", quoteBytes contact.aliasName),
      ("endpoint", objectBytes layout (depth + 1)
        [("host", quoteBytes contact.endpoint.host),
          ("port", (Nat.toDigits 10 contact.endpoint.port.toNat).length)]),
      ("pubkey_b64", quoteBytes contact.pubkeyB64),
      ("sign_pubkey_b64", optionBytes contact.signPubkeyB64)]

/-- How many bytes a stored key store takes.  The three keys are 44 characters
each. -/
def Contacts.storedBytes (contacts : Contacts) (layout : Layout) : Nat :=
  objectBytes layout 0
    [("identity_private_b64", 46), ("identity_public_b64", 46),
      ("sign_seed_b64", 46),
      ("contacts", objectBytes layout 1 (contacts.entries.map fun entry =>
        (entry.1, entry.2.bytes layout 2))),
      ("config", 2)]

/-- How many bytes an envelope takes around a ciphertext of this length. -/
def envelopeBytes (ciphertext : Nat) : Nat :=
  objectBytes .pretty 0
    [("format", 25), ("version", 1), ("kdf", 20), ("iterations", 6),
      ("salt_b64", 26), ("nonce_b64", 18),
      ("ciphertext_b64", (ciphertext + 2) / 3 * 4 + 2)]

/-- How many bytes the file of a key store takes. -/
def KeyStore.fileBytes {prims : Primitives} (store : KeyStore prims) : Nat :=
  match store.config.password with
  | none => store.contacts.storedBytes .pretty
  | some _ => envelopeBytes (store.contacts.storedBytes .compact + 16)

theorem textBytes_ofList_length (chars : List Char) :
    (textBytes (String.ofList chars)).length = String.utf8Len chars := by
  change (String.ofList chars).utf8ByteSize = _
  rw [String.utf8ByteSize_ofList]

theorem utf8Len_writeString (text : String) :
    String.utf8Len (writeString text) = quoteBytes text := rfl

theorem utf8Len_writeNumber (number : Nat) :
    String.utf8Len (writeNumber number) = (Nat.toDigits 10 number).length :=
  utf8Len_toDigits number

theorem utf8Len_writeOption (text : Option String) :
    String.utf8Len (writeOption text) = optionBytes text := by
  cases text with
  | none => decide
  | some text => rfl

theorem utf8Len_writeContact (contact : Contact) (layout : Layout)
    (depth : Nat) :
    String.utf8Len (contact.write layout depth) =
      contact.bytes layout depth := by
  simp only [Contact.write, ControlPlane.Endpoint.write, Contact.bytes,
    utf8Len_object, List.map_cons, List.map_nil, Prod.map, id,
    utf8Len_writeString, utf8Len_writeNumber, utf8Len_writeOption]

theorem quoteBytes_base64 (bytes : Bytes) :
    quoteBytes (Base64.encode bytes) = (bytes.length + 2) / 3 * 4 + 2 :=
  size_base64 bytes

theorem quoteBytes_key (key : Key) :
    quoteBytes (Base64.encode key.val) = 46 := by
  rw [quoteBytes_base64, key.length_eq]

variable {prims : Primitives}

theorem stored_write_length (store : KeyStore prims) (layout : Layout) :
    (textBytes (store.stored.write layout)).length =
      store.contacts.storedBytes layout := by
  have hcontacts : ((store.contacts.entries.map fun entry =>
      (entry.1, entry.2.write layout 2)).map (Prod.map id String.utf8Len)) =
        store.contacts.entries.map fun entry =>
          (entry.1, entry.2.bytes layout 2) := by
    rw [List.map_map]
    apply List.map_congr_left
    intro entry _
    simp only [Function.comp, Prod.map, id, utf8Len_writeContact]
  have hconfig : objectBytes layout 1 [] = 2 := rfl
  simp only [StoredKeyStore.write, textBytes_ofList_length, utf8Len_object,
    List.map_cons, List.map_nil, Prod.map, id, utf8Len_writeString,
    utf8Len_writeOption, KeyStoreConfig.write, stored, optionBytes,
    quoteBytes_key, hcontacts, hconfig, Contacts.storedBytes]

end Sizes

section Formats

variable {prims : Primitives} {cipher : KeyStoreCipher} {reader : JsonReader}
  {draws : KeyStoreDraws} {stored : StoredKeyStore}
  {encrypted : StoredEncryptedKeyStore} {store : KeyStore prims}

/-- What is read for a stored key store: everything but the password, with the
contacts in an order of their own. -/
structure StoredKeyStore.ReadAs (written read : StoredKeyStore) : Prop where
  identityPrivate : read.identityPrivateB64 = written.identityPrivateB64
  identityPublic : read.identityPublicB64 = written.identityPublicB64
  signSeed : read.signSeedB64 = written.signSeedB64
  contacts : ∀ key, read.contacts.get key = written.contacts.get key
  password : read.config.password = none

/-- The reader reads what was written for this key store, which as an object
has no format. -/
structure JsonReader.ReadsStored (reader : JsonReader)
    (stored : StoredKeyStore) : Prop where
  pretty : ∃ value read, reader.fromStr (stored.write .pretty) = .ok value ∧
    reader.getStr value "format" = none ∧
    reader.storedOf value = .ok read ∧ stored.ReadAs read
  compact : ∃ read, reader.fromSlice stored.toVec = .ok read ∧
    stored.ReadAs read

/-- The reader reads what was written for this envelope. -/
def JsonReader.ReadsEncrypted (reader : JsonReader)
    (encrypted : StoredEncryptedKeyStore) : Prop :=
  ∃ value, reader.fromStr (encrypted.write .pretty) = .ok value ∧
    reader.getStr value "format" = some encrypted.format ∧
    reader.encryptedOf value = .ok encrypted

theorem encryptKeystore_eq_ok {password : String}
    (hencrypt : encryptKeystore cipher draws stored password =
      .ok encrypted) :
    ∃ (salt : FixedBytes keystoreSaltBytes)
      (nonce : FixedBytes keystoreNonceBytes) (ciphertext : Bytes),
      cipher.encrypt (deriveKeystoreKey cipher password salt.val
        keystorePbkdf2Iterations) nonce stored.toVec keystoreAad =
          some ciphertext ∧
      encrypted = ⟨keystoreFormat, keystoreFormatVersion, keystoreKdf,
        keystorePbkdf2Iterations, Base64.encode salt.val,
        Base64.encode nonce.val, Base64.encode ciphertext⟩ := by
  simp only [encryptKeystore, bind_eq_ok_iff, okOr_eq_ok_iff,
    pure_eq_ok_iff] at hencrypt
  obtain ⟨salt, -, nonce, -, ciphertext, hciphertext, hencrypted⟩ := hencrypt
  exact ⟨salt, nonce, ciphertext, hciphertext, hencrypted.symm⟩

theorem decodeExact_encode {width : Nat} (bytes : FixedBytes width)
    (label : String) :
    decodeExact (Base64.encode bytes.val) width label = .ok bytes := by
  simp [decodeExact, bind_eq_ok_iff]

/-- Decryption undoes encryption under the same password. -/
theorem decryptKeystore_encryptKeystore {password : String}
    (reader : JsonReader)
    (hencrypt : encryptKeystore cipher draws stored password =
      .ok encrypted) :
    decryptKeystore cipher reader encrypted password =
      serialized (reader.fromSlice stored.toVec) := by
  obtain ⟨salt, nonce, ciphertext, hciphertext, rfl⟩ :=
    encryptKeystore_eq_ok hencrypt
  have hdecrypt := cipher.decrypt_encrypt hciphertext
  have hiterations : keystoreMinPbkdf2Iterations ≤ keystorePbkdf2Iterations ∧
      keystorePbkdf2Iterations ≤ keystoreMaxPbkdf2Iterations := by
    decide
  simp only [decryptKeystore, ensure, hiterations, and_self, if_true,
    decodeExact_encode, Base64.decode_encode, okOr, hdecrypt, bind,
    Except.bind]

theorem parse_pretty (hreads : reader.ReadsStored stored)
    (password envPassword : Option String) :
    ∃ read, KeyStore.parse cipher reader (stored.write .pretty) password
      envPassword = .ok read ∧ stored.ReadAs read := by
  obtain ⟨value, read, hvalue, hformat, hstored, hread⟩ := hreads.pretty
  refine ⟨read, ?_, hread⟩
  simp [KeyStore.parse, hvalue, hformat, hstored, serialized, bind,
    Except.bind]

theorem parse_encrypted {password : String} (envPassword : Option String)
    (hreads : reader.ReadsStored stored)
    (hencrypted : reader.ReadsEncrypted encrypted)
    (hencrypt : encryptKeystore cipher draws stored password =
      .ok encrypted) :
    ∃ read, KeyStore.parse cipher reader (encrypted.write .pretty)
      (some password) envPassword = .ok read ∧ stored.ReadAs read := by
  obtain ⟨value, hvalue, hformat, hof⟩ := hencrypted
  obtain ⟨read, hslice, hread⟩ := hreads.compact
  have hname : encrypted.format = keystoreFormat := by
    obtain ⟨_, _, _, _, rfl⟩ := encryptKeystore_eq_ok hencrypt
    rfl
  have hdecrypt := decryptKeystore_encryptKeystore reader hencrypt
  rw [hname] at hformat
  rw [hslice] at hdecrypt
  refine ⟨read, ?_, hread⟩
  simp [KeyStore.parse, hvalue, hformat, hof, serialized, okOr, hdecrypt,
    bind, Except.bind]

/-- The keys come back from the stored form. -/
theorem identity_of_readAs {read : StoredKeyStore}
    (hread : store.stored.ReadAs read) :
    read.identity prims = .ok store.identity := by
  have hdecode : ∀ (key : Key) label,
      base64Decode32 (Base64.encode key.val) label = .ok key := by
    intro key label
    simp [base64Decode32, bind_eq_ok_iff]
  have hpair : SeededKeyPair.fromSeeds prims store.identity.pair.privateKey
      store.identity.pair.signSeed = store.identity := by
    obtain ⟨⟨pair, hpair⟩, _, _⟩ := store
    simp only [SeededKeyPair.fromSeeds, ← hpair]
  rw [StoredKeyStore.identity, hread.signSeed]
  simp only [stored, hread.identityPrivate, hread.identityPublic,
    hdecode, hpair, ensure, if_true, bind, Except.bind, pure, Except.pure]

/-- The two forms of a file that was written, and its size. -/
theorem serialize_eq_ok {data : Bytes}
    (hserialize : store.serialize cipher draws = .ok data) :
    (store.config.password = none ∧
      data = textBytes (store.stored.write .pretty)) ∨
    ∃ password encrypted, store.config.password = some password ∧
      encryptKeystore cipher draws store.stored password = .ok encrypted ∧
      data = textBytes (encrypted.write .pretty) := by
  unfold serialize at hserialize
  split at hserialize
  · rename_i password hpassword
    simp only [bind_eq_ok_iff, ensure_eq_ok_iff, pure_eq_ok_iff] at hserialize
    obtain ⟨-, -, encrypted, hencrypt, hdata⟩ := hserialize
    exact Or.inr ⟨password, encrypted, hpassword, hencrypt, hdata.symm⟩
  · rename_i hpassword
    exact Or.inl ⟨hpassword, (Except.ok.inj hserialize).symm⟩

theorem encrypted_write_length {password : String}
    (hencrypt : encryptKeystore cipher draws store.stored password =
      .ok encrypted) :
    (textBytes (encrypted.write .pretty)).length =
      envelopeBytes (store.contacts.storedBytes .compact + 16) := by
  obtain ⟨salt, nonce, ciphertext, hciphertext, rfl⟩ :=
    encryptKeystore_eq_ok hencrypt
  have hlength := cipher.encrypt_length hciphertext
  rw [StoredKeyStore.toVec, stored_write_length] at hlength
  have hsalt : (keystoreSaltBytes + 2) / 3 * 4 + 2 = 26 := rfl
  have hnonce : (keystoreNonceBytes + 2) / 3 * 4 + 2 = 18 := rfl
  have hformat : quoteBytes keystoreFormat = 25 := by decide
  have hkdf : quoteBytes keystoreKdf = 20 := by decide
  have hversion : (Nat.toDigits 10 keystoreFormatVersion.toNat).length = 1 := by
    decide
  have hiterations :
      (Nat.toDigits 10 keystorePbkdf2Iterations.toNat).length = 6 := by
    decide
  simp only [StoredEncryptedKeyStore.write, textBytes_ofList_length,
    utf8Len_object, List.map_cons, List.map_nil, Prod.map, id,
    utf8Len_writeString, utf8Len_writeNumber, quoteBytes_base64,
    salt.length_eq, nonce.length_eq, hlength, hsalt, hnonce, hformat, hkdf,
    hversion, hiterations, envelopeBytes]

theorem serialize_length {data : Bytes}
    (hserialize : store.serialize cipher draws = .ok data) :
    data.length = store.fileBytes := by
  unfold fileBytes
  obtain ⟨hpassword, rfl⟩ | ⟨password, encrypted, hpassword, hencrypt, rfl⟩ :=
    serialize_eq_ok hserialize
  · rw [hpassword]
    exact stored_write_length store .pretty
  · rw [hpassword]
    exact encrypted_write_length hencrypt

end Formats

section Disk

variable {disk newDisk : SecretDisk} {path : SecretPath} {data : Bytes}
  {faults : SecretWriteFaults}

namespace SecretDisk

theorem checkComponents_eq_ok_iff {components : List SecretPath} :
    disk.checkComponents components = .ok () ↔
      ∀ component ∈ components, disk.checkComponent component = .ok () := by
  induction components with
  | nil => simp [checkComponents]
  | cons component components ih =>
      rw [checkComponents, bind_eq_ok_iff, List.forall_mem_cons, ← ih]
      constructor
      · rintro ⟨⟨⟩, hcheck, hrest⟩
        exact ⟨hcheck, hrest⟩
      · rintro ⟨hcheck, hrest⟩
        exact ⟨(), hcheck, hrest⟩

@[simp] theorem lstat_put_self (node : SecretNode) :
    (disk.put path node).lstat path = .ok (some node) := if_pos rfl

/-- A file put at the end of a path leaves the path free of links. -/
theorem ensureNoReparseComponents_put (mode : Nat)
    (hpath : disk.ensureNoReparseComponents path = .ok ()) :
    (disk.put path (.file mode data)).ensureNoReparseComponents path =
      .ok () := by
  rw [ensureNoReparseComponents, checkComponents_eq_ok_iff] at hpath ⊢
  intro component hcomponent
  by_cases hsame : component = path
  · subst hsame
    simp [checkComponent]
  · have hother : (disk.put path (.file mode data)).lstat component =
        disk.lstat component := if_neg hsame
    rw [checkComponent, hother]
    exact hpath component hcomponent

end SecretDisk

/-- A write that succeeded left the bytes in a file of the owner alone, at the
end of a path without links. -/
theorem atomicSecretWrite_eq_ok
    (hwrite : atomicSecretWrite faults disk path data = (.ok (), newDisk)) :
    newDisk.lstat path = .ok (some (.file secretFileMode data)) ∧
      newDisk.ensureNoReparseComponents path = .ok () := by
  simp only [atomicSecretWrite] at hwrite
  split at hwrite
  · simp at hwrite
  · split at hwrite
    · simp at hwrite
    · rename_i hreplace
      rw [Prod.mk.injEq] at hwrite
      simp only [bind_eq_ok_iff] at hreplace
      obtain ⟨-, -, ⟨⟩, hpath, -⟩ := hreplace
      rw [← hwrite.2]
      exact ⟨SecretDisk.lstat_put_self _,
        SecretDisk.ensureNoReparseComponents_put _ hpath⟩

/-- Reading such a file only depends on its size. -/
theorem readBounded_eq_ok_iff {bytes : Bytes}
    (hfile : disk.lstat path = .ok (some (.file secretFileMode data)))
    (hpath : disk.ensureNoReparseComponents path = .ok ()) :
    readBounded disk path = .ok bytes ↔
      data.length ≤ maxKeystoreBytes ∧ bytes = data := by
  have hmetadata : disk.metadata path = .ok (.file secretFileMode data) := by
    rw [SecretDisk.metadata, hfile]
  have hperms : disk.assertSecretFilePerms path = .ok () := by
    have hmode : secretFileMode &&& 0o077 = 0 := by decide
    simp only [SecretDisk.assertSecretFilePerms, hmetadata, bind, Except.bind,
      SecretNode.mode, ensure_eq_ok_iff, hmode]
  have hopen : disk.openReadonlyNoReparse path = .ok data := by
    simp only [SecretDisk.openReadonlyNoReparse, hpath, hmetadata, bind,
      Except.bind, pure, Except.pure]
  simp only [readBounded, hpath, hperms, hopen, bind_eq_ok_iff,
    ensure_eq_ok_iff, pure, Except.pure, Except.ok.injEq, exists_eq_left',
    exists_const, true_and, List.length_take]
  constructor
  · rintro ⟨hlength, -, rfl⟩
    exact ⟨hlength, List.take_of_length_le (by omega)⟩
  · rintro ⟨hlength, rfl⟩
    exact ⟨hlength, by omega, List.take_of_length_le (by omega)⟩

end Disk

section Reload

variable {prims : Primitives} {cipher : KeyStoreCipher} {reader : JsonReader}
  {draws : KeyStoreDraws} {faults : SecretWriteFaults}
  {disk newDisk : SecretDisk} {path : SecretPath} {store : KeyStore prims}

theorem save_eq_ok
    (hsave : store.save cipher draws faults disk path = (.ok (), newDisk)) :
    ∃ data, store.serialize cipher draws = .ok data ∧
      ∀ bytes, readBounded newDisk path = .ok bytes ↔
        store.fileBytes ≤ maxKeystoreBytes ∧ bytes = data := by
  unfold save at hsave
  split at hsave
  · simp at hsave
  · rename_i data hserialize
    obtain ⟨hfile, hpath⟩ := atomicSecretWrite_eq_ok hsave
    have hlength := serialize_length hserialize
    refine ⟨data, hserialize, fun bytes => ?_⟩
    rw [← hlength]
    exact readBounded_eq_ok_iff hfile hpath

/-- What the file says, in either form, is what was stored. -/
theorem parse_serialized {data : Bytes}
    (hreads : reader.ReadsStored store.stored)
    (hencrypted : ∀ password ∈ store.config.password, ∀ encrypted,
      encryptKeystore cipher draws store.stored password = .ok encrypted →
        reader.ReadsEncrypted encrypted)
    (hserialize : store.serialize cipher draws = .ok data) :
    ∃ contents read, String.fromUTF8? ⟨data.toArray⟩ = some contents ∧
      KeyStore.parse cipher reader contents store.config.password none =
        .ok read ∧
      store.stored.ReadAs read := by
  obtain ⟨hpassword, rfl⟩ | ⟨password, encrypted, hpassword, hencrypt, rfl⟩ :=
    serialize_eq_ok hserialize
  · obtain ⟨read, hparse, hread⟩ :=
      parse_pretty hreads store.config.password none
    exact ⟨_, read, fromUTF8?_textBytes _, hparse, hread⟩
  · obtain ⟨read, hparse, hread⟩ := parse_encrypted none hreads
      (hencrypted password hpassword encrypted hencrypt) hencrypt
    rw [hpassword]
    exact ⟨_, read, fromUTF8?_textBytes _, hparse, hread⟩

/-- A file above the limit is not loaded, whatever the password. -/
theorem load_ne_ok_of_large
    (hsave : store.save cipher draws faults disk path = (.ok (), newDisk))
    (hlarge : maxKeystoreBytes < store.fileBytes)
    (password envPassword : Option String) (loaded : KeyStore prims) :
    load prims cipher reader newDisk path password envPassword ≠
      .ok loaded := by
  intro hload
  obtain ⟨data, -, hbounded⟩ := save_eq_ok hsave
  simp only [load, bind_eq_ok_iff] at hload
  obtain ⟨buf, hbuf, -⟩ := hload
  have hsmall := ((hbounded buf).mp hbuf).1
  omega

/-- A saved key store is loaded again with its keys and contacts if and only
if its file is within the limit of the loader. -/
theorem key_store_reloads_iff
    (hreads : reader.ReadsStored store.stored)
    (hencrypted : ∀ password ∈ store.config.password, ∀ encrypted,
      encryptKeystore cipher draws store.stored password = .ok encrypted →
        reader.ReadsEncrypted encrypted)
    (hsave : store.save cipher draws faults disk path = (.ok (), newDisk)) :
    (∃ loaded, load prims cipher reader newDisk path
        store.config.password none = .ok loaded ∧
      loaded.identity = store.identity ∧
      ∀ key, loaded.contacts.get key = store.contacts.get key) ↔
      store.fileBytes ≤ maxKeystoreBytes := by
  constructor
  · rintro ⟨loaded, hload, -⟩
    by_contra hlarge
    exact load_ne_ok_of_large hsave (by omega) _ _ loaded hload
  · intro hsmall
    obtain ⟨data, hserialize, hbounded⟩ := save_eq_ok hsave
    have hbuf := (hbounded data).mpr ⟨hsmall, rfl⟩
    obtain ⟨contents, read, hcontents, hparse, hread⟩ :=
      parse_serialized hreads hencrypted hserialize
    have hidentity := identity_of_readAs hread
    refine ⟨⟨store.identity, read.contacts, ⟨store.config.password⟩⟩, ?_, rfl,
      hread.contacts⟩
    simp only [load, hbuf, hcontents, okOr, hparse, hidentity,
      hread.password, bind, Except.bind, pure, Except.pure]
    cases store.config.password <;> rfl

end Reload

section Limit

theorem two_le_quoteBytes (text : String) : 2 ≤ quoteBytes text := by
  have hquote : '"'.utf8Size = 1 := by decide
  rw [quoteBytes, FlatJson.quote, String.utf8Len_cons, String.utf8Len_append,
    String.utf8Len_cons, hquote]
  omega

/-- No contact takes less than this in an indented file. -/
theorem le_memberBytes_contact (entry : String × Contact) :
    128 ≤ memberBytes .pretty 1 (entry.1, entry.2.bytes .pretty 2) := by
  have hkey := two_le_quoteBytes entry.1
  have hnames : quoteBytes "alias" = 7 ∧ quoteBytes "endpoint" = 10 ∧
      quoteBytes "host" = 6 ∧ quoteBytes "port" = 6 ∧
      quoteBytes "pubkey_b64" = 12 ∧ quoteBytes "sign_pubkey_b64" = 17 := by
    decide
  simp only [Contact.bytes, objectBytes, memberBytes, hnames, List.map_cons,
    List.map_nil, List.sum_cons, List.sum_nil, Layout.newlineBytes,
    Layout.colonBytes, reduceCtorEq, if_false]
  omega

/-- So many contacts never fit. -/
theorem storedBytes_of_many_contacts {contacts : Contacts}
    (hmany : 8192 ≤ contacts.entries.length) :
    maxKeystoreBytes < contacts.storedBytes .pretty := by
  have hne : (contacts.entries.map fun entry =>
      (entry.1, entry.2.bytes .pretty 2)) ≠ [] := by
    intro hempty
    rw [List.map_eq_nil_iff] at hempty
    rw [hempty] at hmany
    simp at hmany
  have hsum := List.card_nsmul_le_sum
    ((contacts.entries.map fun entry =>
      (entry.1, entry.2.bytes .pretty 2)).map (memberBytes .pretty 1)) 128
    (by
      intro size hsize
      rw [List.map_map, List.mem_map] at hsize
      obtain ⟨entry, -, rfl⟩ := hsize
      exact le_memberBytes_contact entry)
  rw [List.length_map, List.length_map, smul_eq_mul] at hsum
  have hlimit : maxKeystoreBytes = 8192 * 128 := rfl
  simp only [Contacts.storedBytes, objectBytes, if_neg hne, memberBytes,
    List.map_cons, List.map_nil, List.sum_cons, List.sum_nil, reduceCtorEq,
    if_false]
  omega

end Limit

namespace KeyStoreWitness

open HandshakeWitness

/-- A cipher that adds a tag to the message. -/
def cipher : KeyStoreCipher where
  encrypt key nonce msg _ := Aead.tagged.encrypt key nonce msg
  decrypt key nonce msg _ := Aead.tagged.decrypt key nonce msg
  pbkdf2 _ _ _ := key 0
  decrypt_encrypt := Aead.tagged.decrypt_encrypt
  encrypt_length := Aead.tagged.encrypt_length

def draws : KeyStoreDraws :=
  ⟨some (FixedBytes.replicate _ 7), some (FixedBytes.replicate _ 9)⟩

/-- What the cipher and the draws make of a stored key store. -/
def envelope (stored : StoredKeyStore) : StoredEncryptedKeyStore :=
  ⟨keystoreFormat, keystoreFormatVersion, keystoreKdf,
    keystorePbkdf2Iterations, Base64.encode (List.replicate 16 7),
    Base64.encode (List.replicate 12 9),
    Base64.encode (stored.toVec ++ List.replicate 16 0)⟩

/-- The reader at the texts of one stored key store and its envelope. -/
def jsonReader (stored : StoredKeyStore) : JsonReader where
  Value := StoredKeyStore ⊕ StoredEncryptedKeyStore
  fromStr text :=
    if text = stored.write .pretty then
      .ok (.inl { stored with config := ⟨none⟩ })
    else if text = (envelope stored).write .pretty then
      .ok (.inr (envelope stored))
    else .error "expected value at line 1 column 1"
  getStr value name :=
    match value with
    | .inl _ => none
    | .inr encrypted => if name = "format" then some encrypted.format else none
  storedOf
    | .inl stored => .ok stored
    | .inr _ => .error "missing field `identity_private_b64`"
  encryptedOf
    | .inl _ => .error "missing field `format`"
    | .inr encrypted => .ok encrypted
  fromSlice bytes :=
    if bytes = stored.toVec then .ok { stored with config := ⟨none⟩ }
    else .error "expected value at line 1 column 1"

theorem jsonReader_readsStored (stored : StoredKeyStore) :
    (jsonReader stored).ReadsStored stored := by
  have hread : stored.ReadAs { stored with config := ⟨none⟩ } :=
    ⟨rfl, rfl, rfl, fun _ => rfl, rfl⟩
  constructor
  · refine ⟨.inl { stored with config := ⟨none⟩ }, _, ?_, rfl, rfl, hread⟩
    simp only [jsonReader, if_true]
  · refine ⟨{ stored with config := ⟨none⟩ }, ?_, hread⟩
    simp only [jsonReader, if_true]

/-- The two forms begin with different names. -/
theorem write_envelope_ne (stored : StoredKeyStore) :
    (envelope stored).write .pretty ≠ stored.write .pretty := by
  intro heq
  have hchars := String.ofList_injective heq
  simp [object, writeMembers, Layout.newline, FlatJson.quote, FlatJson.escape,
    FlatJson.escapeChar, FlatJson.shortEscape] at hchars

theorem jsonReader_readsEncrypted (stored : StoredKeyStore) :
    (jsonReader stored).ReadsEncrypted (envelope stored) := by
  refine ⟨.inr (envelope stored), ?_, rfl, rfl⟩
  simp only [jsonReader, if_neg (write_envelope_ne stored), if_true]

def contact (number : Nat) : Contact :=
  ⟨toString number, ⟨"127.0.0.1", 9000⟩, Base64.encode (seed 3).val, none⟩

/-- A directory of numbered contacts. -/
def contacts (count : Nat) : Contacts where
  entries := (List.range count).map fun number =>
    (toString number, contact number)
  nodup := by
    rw [List.map_map]
    apply List.Nodup.map _ List.nodup_range
    intro left right heq
    exact Nat.repr_injective heq

def store (count : Nat) (password : Option String) : KeyStore primitives :=
  ⟨.fromSeeds primitives (seed 1) (seed 2), contacts count, ⟨password⟩⟩

def noFaults : SecretWriteFaults := fun _ => none

def emptyDisk : SecretDisk := ⟨fun _ => .ok none⟩

def path : SecretPath := ["keystore.json"]

def saved (data : Bytes) : SecretDisk :=
  (emptyDisk.createDirAll ["."]).put path (.file secretFileMode data)

theorem save_isOk (count : Nat) :
    (store count none).save cipher draws noFaults emptyDisk path =
      (.ok (), saved (store count none).stored.toVecPretty) := rfl

def lockedStore : KeyStore primitives := store 1 (some "secret")

theorem save_locked_isOk :
    lockedStore.save cipher draws noFaults emptyDisk path =
      (.ok (), saved (envelope lockedStore.stored).toVecPretty) := rfl

/-- A key store with one contact comes back, without a password and with
one. -/
theorem key_store_reloads_one :
    (∃ loaded, load primitives cipher
        (jsonReader (store 1 none).stored)
        (saved (store 1 none).stored.toVecPretty) path none none =
          .ok loaded ∧
      loaded.identity = (store 1 none).identity ∧
      ∀ key, loaded.contacts.get key = (store 1 none).contacts.get key) ∧
    ∃ loaded, load primitives cipher
        (jsonReader lockedStore.stored)
        (saved (envelope lockedStore.stored).toVecPretty) path
          (some "secret") none = .ok loaded ∧
      loaded.identity = lockedStore.identity ∧
      ∀ key, loaded.contacts.get key = lockedStore.contacts.get key := by
  constructor
  · exact (key_store_reloads_iff (jsonReader_readsStored _)
      (by simp [store]) (save_isOk 1)).mpr (by decide)
  · refine (key_store_reloads_iff (jsonReader_readsStored _) ?_
      save_locked_isOk).mpr (by decide)
    rintro _ ⟨⟩ _ ⟨⟩
    exact jsonReader_readsEncrypted _

/-- A key store with many contacts is saved and is lost by it. -/
theorem many_contacts_are_lost :
    (jsonReader (store 8192 none).stored).ReadsStored (store 8192 none).stored ∧
      ∃ newDisk, (store 8192 none).save cipher draws noFaults emptyDisk path =
          (.ok (), newDisk) ∧
        ¬ ∃ loaded, load primitives cipher
          (jsonReader (store 8192 none).stored) newDisk path none none =
            .ok loaded := by
  refine ⟨jsonReader_readsStored _, _, save_isOk 8192, ?_⟩
  rintro ⟨loaded, hload⟩
  have hcount : 8192 ≤ (contacts 8192).entries.length := by
    rw [contacts, List.length_map, List.length_range]
  exact load_ne_ok_of_large (save_isOk 8192)
    (storedBytes_of_many_contacts hcount) none none loaded hload

end KeyStoreWitness

end Shph
