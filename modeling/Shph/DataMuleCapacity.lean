/-
The capacity of the data-mule adapter.  The search finds the largest plaintext
whose longest possible envelope fits the file, provided that the envelope of
the empty plaintext does; then no payload that is accepted is refused for its
size once a nonce and a sequence number are spent on it.
-/
import Shph.DataMule
import Shph.Library.JsonLayout

namespace Shph

open ByteCodec Decimal FlatJson JsonLayout DataMuleWriteState
/-- The size of the longest envelope for a plaintext of this length. -/
def longestEnvelopeBytes (localNode peerNode : String) (length : Nat) : Nat :=
  (longestEnvelope localNode peerNode (Base64.encode
    (List.replicate (length + shroudAeadOverhead) 0))).toVec.length

section Sizes

theorem size_number (number : Nat) :
    (Value.number number).size = (Nat.toDigits 10 number).length :=
  utf8Len_toDigits number

theorem size_identifier (left right : Nat) :
    (Value.text (toString left ++ "-" ++ toString right)).size =
      (Nat.toDigits 10 left).length + (Nat.toDigits 10 right).length + 3 := by
  have hdigits : ∀ number, ∀ char ∈ Nat.toDigits 10 number,
      escapeChar char = [char] := fun number char hchar =>
    escapeChar_of_isDigit
      (Nat.isDigit_of_mem_toDigits (by decide) (by decide) hchar)
  have hchars : (toString left ++ "-" ++ toString right).toList =
      Nat.toDigits 10 left ++ '-' :: Nat.toDigits 10 right := by
    simp [ToString.toString]
  have hdash : '-'.utf8Size = 1 := by decide
  rw [Value.size_text]
  · rw [← String.ofList_toList (s := toString left ++ "-" ++ toString right),
      hchars, String.utf8ByteSize_ofList, String.utf8Len_append,
      String.utf8Len_cons, utf8Len_toDigits, utf8Len_toDigits, hdash]
    omega
  · rw [hchars]
    intro char hchar
    rw [List.mem_append, List.mem_cons] at hchar
    obtain hchar | rfl | hchar := hchar
    · exact hdigits left char hchar
    · decide
    · exact hdigits right char hchar

theorem toDigits_u64Max : (Nat.toDigits 10 u64Max).length = 20 := by
  decide

theorem toDigits_uint64_le (number : UInt64) :
    (Nat.toDigits 10 number.toNat).length ≤ 20 := by
  apply toDigits_length_le
  have hnumber := number.toNat_lt
  omega

/-- The bytes of an envelope around its values. -/
def envelopeFrameBytes : Nat :=
  String.utf8Len (fieldStart '{' "envelope_id") +
    String.utf8Len (fieldStart ',' "created_at_unix_ms") +
    String.utf8Len (fieldStart ',' "from_node") +
    String.utf8Len (fieldStart ',' "to_node") +
    String.utf8Len (fieldStart ',' "ciphertext_b64") +
    String.utf8Len (fieldStart ',' "nonce_b64") + 1

theorem toVec_length (envelope : DataMuleEnvelope) :
    envelope.toVec.length = envelopeFrameBytes +
      (Value.text envelope.envelopeId).size +
      (Value.number envelope.createdAtUnixMs.toNat).size +
      (Value.text envelope.fromNode).size + (Value.text envelope.toNode).size +
      (Value.text envelope.ciphertextB64).size +
      (Value.text envelope.nonceB64).size := by
  have hend : String.utf8Len (writeFields ',' []) = 0 := rfl
  simp only [DataMuleEnvelope.toVec, writeObject_length,
    utf8Len_writeFields_cons, hend, envelopeFrameBytes]
  omega

/-- A ciphertext adds its Base64 form to the longest envelope. -/
theorem longestEnvelope_length (localNode peerNode : String) (bytes : Bytes) :
    (longestEnvelope localNode peerNode (Base64.encode bytes)).toVec.length =
      (longestEnvelope localNode peerNode "").toVec.length +
        (bytes.length + 2) / 3 * 4 := by
  have hempty : (Value.text "").size = 2 := by decide
  rw [toVec_length, toVec_length]
  simp only [longestEnvelope, size_base64, hempty]
  omega

theorem longestEnvelopeBytes_eq (localNode peerNode : String) (length : Nat) :
    longestEnvelopeBytes localNode peerNode length =
      (longestEnvelope localNode peerNode "").toVec.length +
        (length + 30) / 3 * 4 := by
  rw [longestEnvelopeBytes, longestEnvelope_length, List.length_replicate]
  rfl

/-- No envelope is longer than the longest one for its plaintext. -/
theorem envelope_length_le (state : DataMuleWriteState) (createdAt : UInt64)
    {length : Nat} {encrypted : Bytes}
    (hencrypted : encrypted.length = length + shroudAeadOverhead) :
    (state.envelope createdAt encrypted).toVec.length ≤
      longestEnvelopeBytes state.localNode state.peerNode length := by
  have hcreated := toDigits_uint64_le createdAt
  have hsequence := toDigits_uint64_le state.nextSequence
  have hlongest : (UInt64.ofNat u64Max).toNat = u64Max := by decide
  rw [longestEnvelopeBytes, toVec_length, toVec_length]
  simp only [envelope, longestEnvelope, size_base64,
    size_number, size_identifier, hencrypted, List.length_replicate,
    littleEndian_length, hlongest, toDigits_u64Max]
  omega

end Sizes

section Search

variable {maxFileBytes fixedEnvelopeBytes length : Nat}

/-- The saturating sums of the search are exact below the largest bound. -/
theorem plaintextFits_iff (hbound : maxFileBytes < u64Max) :
    PlaintextFits maxFileBytes fixedEnvelopeBytes length ↔
      fixedEnvelopeBytes + (length + 30) / 3 * 4 ≤ maxFileBytes := by
  have hoverhead : shroudAeadOverhead = 28 := rfl
  unfold PlaintextFits
  rw [base64EncodedLen_eq]
  simp only [saturatingAdd, hoverhead]
  split <;> omega

/-- The search ends at a length that fits if it starts at one. -/
theorem searchPlaintext_fits (steps : Nat) {low : Nat} (high : Nat)
    (hlow : PlaintextFits maxFileBytes fixedEnvelopeBytes low) :
    PlaintextFits maxFileBytes fixedEnvelopeBytes
      (searchPlaintext maxFileBytes fixedEnvelopeBytes steps low high) := by
  induction steps generalizing low high with
  | zero => exact hlow
  | succ steps ih =>
      rw [searchPlaintext]
      split
      · dsimp only
        split
        · rename_i hfits
          exact ih high hfits
        · exact ih _ hlow
      · exact hlow

end Search

section Capacity

variable {maxFileBytes : Nat} {localNode peerNode : String}

theorem longestEnvelopeBytes_mono {shorter longer : Nat}
    (hle : shorter ≤ longer) :
    longestEnvelopeBytes localNode peerNode shorter ≤
      longestEnvelopeBytes localNode peerNode longer := by
  rw [longestEnvelopeBytes_eq, longestEnvelopeBytes_eq]
  omega

/-- The capacity is the largest length that fits, if one fits. -/
theorem dataMulePayloadCapacity_isGreatest (hbound : maxFileBytes < u64Max)
    (hempty : longestEnvelopeBytes localNode peerNode 0 ≤ maxFileBytes) :
    IsGreatest {length | longestEnvelopeBytes localNode peerNode length ≤
      maxFileBytes}
      (dataMulePayloadCapacity maxFileBytes localNode peerNode) := by
  have hfits : ∀ length,
      PlaintextFits maxFileBytes
        (longestEnvelope localNode peerNode "").toVec.length length ↔
        longestEnvelopeBytes localNode peerNode length ≤ maxFileBytes := by
    intro length
    rw [plaintextFits_iff hbound, longestEnvelopeBytes_eq]
  have hfixed : ¬ maxFileBytes <
      (longestEnvelope localNode peerNode "").toVec.length := by
    rw [longestEnvelopeBytes_eq] at hempty
    omega
  rw [dataMulePayloadCapacity, maxPlaintextForFileAdapter, if_neg hfixed]
  constructor
  · exact (hfits _).mp (searchPlaintext_fits _ _ ((hfits 0).mpr hempty))
  · intro length hlength
    have hsmall : length ≤ maxFileBytes := by
      change longestEnvelopeBytes localNode peerNode length ≤ _ at hlength
      rw [longestEnvelopeBytes_eq] at hlength
      omega
    exact ((hfits length).mpr hlength).le_search _ _ _ (Nat.sub_le _ _) hsmall

/-- With the largest bound the saturating sums hide every excess. -/
theorem capacity_exceeds (hbound : maxFileBytes = u64Max) :
    maxFileBytes < longestEnvelopeBytes localNode peerNode
      (dataMulePayloadCapacity maxFileBytes localNode peerNode) := by
  rw [longestEnvelopeBytes_eq, dataMulePayloadCapacity,
    maxPlaintextForFileAdapter]
  split
  · omega
  · have hfits : PlaintextFits maxFileBytes
        (longestEnvelope localNode peerNode "").toVec.length maxFileBytes := by
      rw [PlaintextFits, hbound]
      exact Nat.min_le_right _ _
    have hlarge := hfits.le_search maxFileBytes 0 maxFileBytes
      (Nat.sub_le _ _) (Nat.le_refl _)
    omega

theorem isGreatest_capacity_iff (hbound : maxFileBytes ≤ u64Max) :
    IsGreatest {length | longestEnvelopeBytes localNode peerNode length ≤
      maxFileBytes}
      (dataMulePayloadCapacity maxFileBytes localNode peerNode) ↔
      longestEnvelopeBytes localNode peerNode 0 ≤ maxFileBytes ∧
        maxFileBytes < u64Max := by
  constructor
  · rintro ⟨hmember, -⟩
    have hfits : longestEnvelopeBytes localNode peerNode
        (dataMulePayloadCapacity maxFileBytes localNode peerNode) ≤
          maxFileBytes := hmember
    refine ⟨Nat.le_trans (longestEnvelopeBytes_mono (Nat.zero_le _)) hfits, ?_⟩
    by_contra hlargest
    have hexceeds := @capacity_exceeds maxFileBytes localNode peerNode
      (Nat.le_antisymm hbound (Nat.not_lt.mp hlargest))
    omega
  · rintro ⟨hempty, hsmall⟩
    exact dataMulePayloadCapacity_isGreatest hsmall hempty

end Capacity

section Errors

/-- A result that does not say that the envelope is too large. -/
def FitsFile {α : Type} (result : Except ShphError α) : Prop :=
  result ≠ .error dataMuleTooLarge

theorem fitsFile_ok {α : Type} (value : α) :
    FitsFile (.ok value : Except ShphError α) := by
  simp [FitsFile]

theorem fitsFile_error {α : Type} {error : ShphError}
    (herror : error ≠ dataMuleTooLarge) :
    FitsFile (.error error : Except ShphError α) := by
  simpa [FitsFile] using herror

theorem fitsFile_ensure {condition : Prop} [Decidable condition]
    {error : ShphError} (herror : error ≠ dataMuleTooLarge) :
    FitsFile (ensure condition error) := by
  unfold ensure
  split
  · exact fitsFile_ok ()
  · exact fitsFile_error herror

theorem visitEntries_fitsFile {σ : Type}
    {visit : String × Node → σ → FileSystem → Except ShphError σ × FileSystem}
    (hvisit : ∀ entry scan fs, FitsFile (visit entry scan fs).1)
    (entries : Entries) (scan : σ) (fs : FileSystem) :
    FitsFile (visitEntries visit entries scan fs).1 := by
  induction entries generalizing scan fs with
  | nil => exact fitsFile_ok scan
  | cons entry rest ih =>
      have hentry := hvisit entry scan fs
      rw [visitEntries]
      split
      · exact ih _ _
      · rename_i error _ hresult
        rw [hresult] at hentry
        exact hentry

theorem accountScanEntry_error {scanned : Nat} {error : ShphError}
    (haccount : accountScanEntry scanned = .error error) :
    error ≠ dataMuleTooLarge := by
  unfold accountScanEntry ensure at haccount
  dsimp only at haccount
  split at haccount
  · cases haccount
  · cases haccount
    decide

theorem accountScanBytes_error {scannedBytes bytes : Nat} {error : ShphError}
    (haccount : accountScanBytes scannedBytes bytes = .error error) :
    error ≠ dataMuleTooLarge := by
  unfold accountScanBytes ensure at haccount
  dsimp only at haccount
  split at haccount
  · cases haccount
  · cases haccount
    decide

theorem encrypt_error {aead : Aead} {cipher next : SendCipher}
    {plaintext : Bytes} {error : ShphError}
    (hencrypt : cipher.encrypt aead plaintext = (.error error, next)) :
    error ≠ dataMuleTooLarge := by
  unfold SendCipher.encrypt at hencrypt
  split at hencrypt
  · cases hencrypt
    decide
  · split at hencrypt
    · cases hencrypt
      decide
    · cases hencrypt

variable (host : DataMuleHost) (limits : DataMuleScanLimits)

theorem visitShphFile_fitsFile (root name : String) (bytes : Bytes)
    (scan : ScanContext DataMuleCandidate) (fs : FileSystem) :
    FitsFile (visitShphFile host limits root name bytes scan fs).1 := by
  unfold visitShphFile
  split
  · exact fitsFile_ok _
  · split
    · exact fitsFile_ok _
    · split
      · rename_i hbytes
        exact fitsFile_error (accountScanBytes_error hbytes)
      · dsimp only
        split
        · exact fitsFile_ok _
        · split
          · exact fitsFile_ok _
          · split
            · exact fitsFile_ok _
            · rename_i hprotocol _
              exact fitsFile_error fun heq => hprotocol _ heq
            · exact fitsFile_ok _

theorem visitShphEntry_fitsFile
    {descend : String → ScanContext DataMuleCandidate → FileSystem →
      Except ShphError (ScanContext DataMuleCandidate) × FileSystem}
    (hdescend : ∀ root scan fs, FitsFile (descend root scan fs).1)
    (root : String) (entry : String × Node)
    (scan : ScanContext DataMuleCandidate) (fs : FileSystem) :
    FitsFile (visitShphEntry host limits descend root entry scan fs).1 := by
  unfold visitShphEntry
  split
  · rename_i hentry
    exact fitsFile_error (accountScanEntry_error hentry)
  · dsimp only
    split
    · exact fitsFile_error (by decide)
    · exact hdescend _ _ _
    · exact visitShphFile_fitsFile host limits _ _ _ _ _

/-- A scan fails for what it finds, never for the size of the envelope that
is to be sent. -/
theorem collectShphFiles_fitsFile (levels : Nat) (root : String)
    (scan : ScanContext DataMuleCandidate) (fs : FileSystem) :
    FitsFile (collectShphFiles host limits levels root scan fs).1 := by
  induction levels generalizing root scan fs with
  | zero =>
      rw [collectShphFiles]
      split
      · exact fitsFile_ok _
      · exact fitsFile_error (by decide)
      · exact fitsFile_error (by decide)
  | succ levels ih =>
      rw [collectShphFiles]
      split
      · exact fitsFile_ok _
      · exact fitsFile_error (by decide)
      · exact visitEntries_fitsFile
          (visitShphEntry_fitsFile host limits ih root) _ _ _

theorem dataMuleSpoolUsage_fitsFile (root : String) (fs : FileSystem) :
    FitsFile (dataMuleSpoolUsage host limits root fs).1 := by
  have hscan := collectShphFiles_fitsFile host limits (maxQueueScanDepth + 1)
    root (ScanContext.new _) fs
  unfold dataMuleSpoolUsage
  split
  · rename_i hresult
    rw [hresult] at hscan
    exact fitsFile_error fun heq => hscan (by rw [heq])
  · exact fitsFile_ok _

theorem writeFileAtomically_fitsFile (fs : FileSystem)
    (directory name : String) (bytes : Bytes) :
    FitsFile (fs.writeFileAtomically directory name bytes).1 := by
  unfold FileSystem.writeFileAtomically
  split
  · rename_i hcreate
    unfold FileSystem.createDirAll at hcreate
    split at hcreate
    · cases hcreate
    · cases hcreate
      exact fitsFile_error (by decide)
    · cases hcreate
  · split
    · exact fitsFile_error (by decide)
    · dsimp only
      split
      · exact fitsFile_error (by decide)
      · split
        · exact fitsFile_error (by decide)
        · exact fitsFile_ok _

end Errors

/-- The write states for these nodes and this bound. -/
structure DataMuleWriteState.Configured (state : DataMuleWriteState)
    (maxFileBytes : Nat) (localNode peerNode : String) : Prop where
  fromNode : state.localNode = localNode
  toNode : state.peerNode = peerNode
  bound : state.maxFileBytes = maxFileBytes
  capacity : state.maxPayloadBytes =
    dataMulePayloadCapacity maxFileBytes localNode peerNode

section Send

variable {maxFileBytes : Nat} {localNode peerNode : String}

theorem sendPayload_fitsFile (host : DataMuleHost)
    {state : DataMuleWriteState} (fs : FileSystem) (clock : Option UInt64)
    {length : Nat} {encrypted : Bytes}
    (hencrypted : encrypted.length = length + shroudAeadOverhead)
    (hfits : longestEnvelopeBytes state.localNode state.peerNode length ≤
      state.maxFileBytes) :
    FitsFile (sendPayload host (state, fs)
      (clock, encrypted)).1 := by
  cases clock with
  | none => exact fitsFile_error (by decide)
  | some createdAt =>
      have hsize := Nat.le_trans
        (envelope_length_le state createdAt hencrypted) hfits
      have husage := dataMuleSpoolUsage_fitsFile host
        ⟨state.maxFileBytes, state.maxAgeMs, createdAt.toNat⟩ state.outboxDir
        fs
      unfold sendPayload
      dsimp only
      rw [if_neg (Nat.not_lt.mpr hsize)]
      split
      · rename_i hresult
        rw [hresult] at husage
        exact fitsFile_error fun heq => husage (by rw [heq])
      · split
        · exact fitsFile_error (by simp [dataMuleTooLarge])
        · exact writeFileAtomically_fitsFile _ _ _ _

theorem validateFileAdapterPayload_fitsFile (payload : Bytes)
    (maxPayloadBytes maxFileBytes : Nat) :
    FitsFile (validateFileAdapterPayload payload maxPayloadBytes
      maxFileBytes) := by
  apply fitsFile_ensure
  intro heq
  have hmessage := ShphError.protocol.inj heq
  have hfirst := congrArg (fun text => text.toList.head?) hmessage
  simp [ToString.toString] at hfirst

theorem encrypted_length {aead : Aead} {cipher next : SendCipher}
    {plaintext encrypted : Bytes}
    (hencrypt : cipher.encrypt aead plaintext = (.ok encrypted, next)) :
    encrypted.length = plaintext.length + shroudAeadOverhead := by
  obtain ⟨error, hfailed⟩ | ⟨ciphertext, -, hseal, hsent⟩ :=
    SendCipher.encrypt_cases aead cipher plaintext
  · rw [hfailed] at hencrypt
    cases hencrypt
  · rw [hsent] at hencrypt
    cases hencrypt
    have hlength := aead.encrypt_length hseal
    have hoverhead : shroudAeadOverhead = 28 := rfl
    rw [List.length_append, FixedBytes.length_eq, hlength]
    omega

/-- An accepted frame is not refused for its size where the capacity is one
that fits. -/
theorem sendFrame_fitsFile (host : DataMuleHost) (aead : Aead)
    {sender : DataMuleSender} (fs : FileSystem) (clock : Option UInt64)
    (payload : Bytes)
    (hstate : sender.state.Configured maxFileBytes localNode peerNode)
    (hfits : longestEnvelopeBytes localNode peerNode
      (dataMulePayloadCapacity maxFileBytes localNode peerNode) ≤
        maxFileBytes) :
    FitsFile (DataMuleSender.sendFrame host aead (sender, fs)
      (clock, payload)).1 := by
  unfold DataMuleSender.sendFrame
  dsimp only
  split
  · rename_i hvalid
    have hquiet := validateFileAdapterPayload_fitsFile payload
      sender.state.maxPayloadBytes sender.state.maxFileBytes
    rw [hvalid] at hquiet
    exact fitsFile_error fun heq => hquiet (by rw [heq])
  · rename_i hvalid
    rw [validateFileAdapterPayload, ensure_eq_ok_iff, hstate.capacity]
      at hvalid
    split
    · rename_i hencrypt
      exact fitsFile_error (encrypt_error hencrypt)
    · rename_i encrypted cipher hencrypt
      have hlength : encrypted.length =
          payload.length + shroudAeadOverhead :=
        encrypted_length hencrypt
      apply sendPayload_fitsFile host fs clock hlength
      rw [hstate.fromNode, hstate.toNode, hstate.bound]
      exact Nat.le_trans (longestEnvelopeBytes_mono hvalid) hfits

end Send

/-- The capacity is the largest length that fits, and no accepted frame is
refused for its size, exactly where the longest envelope of the empty
plaintext fits and the bound is not the largest number. -/
theorem data_mule_capacity_iff (maxFileBytes : UInt64)
    (localNode peerNode : String) :
    (IsGreatest {length | longestEnvelopeBytes localNode peerNode length ≤
        maxFileBytes.toNat}
      (dataMulePayloadCapacity maxFileBytes.toNat localNode peerNode) ∧
    ∀ (host : DataMuleHost) (aead : Aead) (sender : DataMuleSender)
      (fs : FileSystem) (clock : Option UInt64) (payload : Bytes),
      sender.state.Configured maxFileBytes.toNat localNode peerNode →
        (DataMuleSender.sendFrame host aead (sender, fs)
          (clock, payload)).1 ≠ .error dataMuleTooLarge) ↔
      longestEnvelopeBytes localNode peerNode 0 ≤ maxFileBytes.toNat ∧
        maxFileBytes.toNat < u64Max := by
  have hbound : maxFileBytes.toNat ≤ u64Max := by
    have hnumber := maxFileBytes.toNat_lt
    have hlargest : u64Max = 2 ^ 64 - 1 := rfl
    omega
  rw [← isGreatest_capacity_iff hbound]
  constructor
  · exact fun hproperty => hproperty.1
  · intro hgreatest
    refine ⟨hgreatest, ?_⟩
    intro host aead sender fs clock payload hstate
    exact sendFrame_fitsFile host aead fs clock payload hstate hgreatest.1

/-- Senders start out configured, with the bound that is clamped. -/
theorem new_configured (cfg : DataMuleConfig) (localNode peerNode : String) :
    (DataMuleWriteState.new cfg localNode peerNode).Configured
      (max 1 (min cfg.maxFileBytes.toNat maxFileAdapterBytes)) localNode
      peerNode := by
  refine ⟨rfl, rfl, rfl, ?_⟩
  simp only [DataMuleWriteState.new]

namespace DataMuleWitness

def config (maxFileBytes : UInt64) : DataMuleConfig :=
  ⟨"outbox", maxFileBytes, 8388608, 86400000⟩

def host : DataMuleHost where
  sha256 := fun _ => FixedBytes.replicate 32 0
  fromSlice := fun _ => none
  readDir := ⟨id, fun _ => List.Perm.refl _⟩

def fs : FileSystem := ⟨fun _ => .missing, 1, 0⟩

def sender (maxFileBytes : UInt64) : DataMuleSender :=
  ⟨.new (config maxFileBytes) "local" "peer",
    .new (FixedBytes.replicate 32 7)⟩

/-- As long as the ciphertext of an empty frame: a nonce and a tag. -/
def emptyCiphertext : Bytes := List.replicate 28 0

def writeState : DataMuleWriteState := .new (config 1) "local" "peer"

theorem sendPayload_empty :
    sendPayload host (writeState, fs)
        (some 1000, emptyCiphertext) =
      (.error dataMuleTooLarge, { writeState with nextSequence := 1 }, fs) := by
  have hframe : 1 < envelopeFrameBytes := by decide
  have hbound : writeState.maxFileBytes = 1 := by
    simp only [writeState, DataMuleWriteState.new, config]
    decide
  have hnext : UInt64.ofNat (saturatingAdd writeState.nextSequence.toNat
      1) = 1 := by
    change UInt64.ofNat (saturatingAdd 0 1) = 1
    decide
  unfold sendPayload
  dsimp only
  rw [hnext, if_pos]
  rw [hbound, toVec_length]
  omega

/-- With a bound of one byte nothing fits, also not a payload of the capacity.
The empty payload is accepted all the same; its ciphertext is refused for its
size and uses up a sequence number. -/
theorem empty_frame_too_large :
    ¬ longestEnvelopeBytes "local" "peer" writeState.maxPayloadBytes ≤ 1 ∧
      validateFileAdapterPayload [] writeState.maxPayloadBytes
        writeState.maxFileBytes = .ok () ∧
      sendPayload host (writeState, fs)
          (some 1000, emptyCiphertext) =
        (.error dataMuleTooLarge, { writeState with nextSequence := 1 },
          fs) := by
  refine ⟨?_, ?_, sendPayload_empty⟩
  · have hframe : 1 < envelopeFrameBytes := by decide
    rw [longestEnvelopeBytes_eq, toVec_length]
    omega
  · rw [validateFileAdapterPayload, ensure_eq_ok_iff]
    exact Nat.zero_le _

theorem empty_fits : longestEnvelopeBytes "local" "peer" 0 ≤ 4096 := by
  have hframe : envelopeFrameBytes ≤ 200 := by decide
  have hlocal : (Value.text "local").size = 7 := by decide
  have hpeer : (Value.text "peer").size = 6 := by decide
  have hempty : (Value.text "").size = 2 := by decide
  have hlongest : (UInt64.ofNat u64Max).toNat = u64Max := by decide
  rw [longestEnvelopeBytes_eq, toVec_length]
  simp only [longestEnvelope, size_base64, size_number, size_identifier,
    littleEndian_length, hlongest, toDigits_u64Max, hlocal, hpeer, hempty]
  omega

/-- With a bound of four kilobytes every accepted frame fits. -/
theorem data_mule_capacity_small :
    longestEnvelopeBytes "local" "peer" 0 ≤ 4096 ∧
      IsGreatest {length | longestEnvelopeBytes "local" "peer" length ≤ 4096}
        (dataMulePayloadCapacity 4096 "local" "peer") ∧
      (DataMuleSender.sendFrame host .tagged (sender 4096, fs)
        (some 1000, [1, 2, 3])).1 ≠ .error dataMuleTooLarge := by
  obtain ⟨hgreatest, hsend⟩ := (data_mule_capacity_iff 4096 "local"
    "peer").mpr ⟨empty_fits, by decide⟩
  have hstate := new_configured (config 4096) "local" "peer"
  have hbound : max 1 (min (config 4096).maxFileBytes.toNat
      maxFileAdapterBytes) = (4096 : UInt64).toNat := by decide
  rw [hbound] at hstate
  exact ⟨empty_fits, hgreatest,
    hsend host .tagged (sender 4096) fs _ _ hstate⟩

end DataMuleWitness

end Shph
