/-
The session ciphers: a sender that counts its nonces up to a cap, and a
receiver that checks the counter of every frame against its replay state
before it authenticates the frame and commits the state only afterwards.
-/
import Shph.Error
import Shph.Library.Bytes
import Shph.ReplayWindow

namespace Shph

open ByteCodec StatefulRun SlidingWindow

abbrev Key := FixedBytes 32

abbrev AeadNonce := FixedBytes 12

/-- The authenticated cipher the sessions are built on.  Encryption may refuse
a plaintext that is too long; what it produces decrypts to the plaintext under
the same key and nonce and carries a 16-byte tag. -/
structure Aead where
  encrypt : Key → AeadNonce → Bytes → Option Bytes
  decrypt : Key → AeadNonce → Bytes → Option Bytes
  decrypt_encrypt : ∀ {key nonce plaintext ciphertext},
    encrypt key nonce plaintext = some ciphertext →
      decrypt key nonce ciphertext = some plaintext
  encrypt_length : ∀ {key nonce plaintext ciphertext},
    encrypt key nonce plaintext = some ciphertext →
      ciphertext.length = plaintext.length + 16

/-- A cipher that only adds a tag of zeros. -/
def Aead.tagged : Aead where
  encrypt _ _ plaintext := some (plaintext ++ List.replicate 16 0)
  decrypt _ _ ciphertext := some (ciphertext.take (ciphertext.length - 16))
  decrypt_encrypt := by
    intro _ _ plaintext ciphertext hencrypt
    rw [← Option.some.inj hencrypt]
    simp
  encrypt_length := by
    intro _ _ plaintext ciphertext hencrypt
    rw [← Option.some.inj hencrypt]
    simp

/-- The cipher known at a single point: it encrypts one plaintext under one
key and nonce and refuses everything else. -/
def Aead.single (key : Key) (nonce : AeadNonce) (plaintext ciphertext : Bytes)
    (hlength : ciphertext.length = plaintext.length + 16) : Aead where
  encrypt k n p :=
    if k = key ∧ n = nonce ∧ p = plaintext then some ciphertext else none
  decrypt k n c :=
    if k = key ∧ n = nonce ∧ c = ciphertext then some plaintext else none
  decrypt_encrypt := by
    intro k n p c h
    split at h
    · rename_i hpoint
      rw [Option.some.injEq] at h
      rw [if_pos ⟨hpoint.1, hpoint.2.1, h.symm⟩, hpoint.2.2]
    · simp at h
  encrypt_length := by
    intro k n p c h
    split at h
    · rename_i hpoint
      rw [Option.some.injEq] at h
      rw [← h, hpoint.2.2, hlength]
    · simp at h

/-- Counter nonces stop one short of `2^32`. -/
def aeadNonceLimit : Nat := 2 ^ 32 - 1

/-- Four zero bytes and the big-endian counter. -/
def nonceBytes (counter : Nat) : AeadNonce where
  val := List.replicate 4 0 ++ bigEndian 8 counter
  length_eq := by simp

/-- The display text of the cipher's only error. -/
def aeadError : ShphError := .crypto "aead::Error"

structure SendCipher where
  key : Key
  nonce : Nat
deriving Repr, DecidableEq

namespace SendCipher

def new (key : Key) : SendCipher := { key := key, nonce := 0 }

/-- Encrypt under the next counter nonce and prefix the nonce to the frame. -/
def encrypt (aead : Aead) (cipher : SendCipher) (plaintext : Bytes) :
    Except ShphError Bytes × SendCipher :=
  if aeadNonceLimit ≤ cipher.nonce then
    (.error (.crypto
      "AEAD nonce limit reached; rekey required to avoid nonce reuse"), cipher)
  else
    match aead.encrypt cipher.key (nonceBytes cipher.nonce) plaintext with
    | none => (.error aeadError, cipher)
    | some ciphertext =>
        (.ok ((nonceBytes cipher.nonce).val ++ ciphertext),
          { cipher with nonce := cipher.nonce + 1 })

end SendCipher

/-- Extract the counter from a nonce in canonical form. -/
def nonceCounter (nonce : Bytes) : Except ShphError Nat := do
  ensure (12 ≤ nonce.length) (.crypto "nonce too short")
  ensure (nonce.take 4 = List.replicate 4 0)
    (.crypto "nonce prefix is not in canonical SHPH form")
  return ofBigEndian ((nonce.drop 4).take 8)

inductive ReplayState where
  | strict (last : Option Nat)
  | window (bitmap : ReplayWindow)
deriving Repr, DecidableEq

/-- The replay state to commit if the frame with this counter authenticates,
or `none` if the counter is a replay or stale.  The window is advanced on a
copy. -/
def ReplayState.candidate : ReplayState → Nat → Option ReplayState
  | .strict last, counter =>
      if last.any (counter ≤ ·) then none else some (.strict (some counter))
  | .window bitmap, counter =>
      if (bitmap.checkAndInsert counter).1 then
        some (.window (bitmap.checkAndInsert counter).2)
      else none

structure ReceiveCipher where
  key : Key
  replay : ReplayState
deriving Repr, DecidableEq

namespace ReceiveCipher

def new (key : Key) : ReceiveCipher := { key := key, replay := .strict none }

/-- The receiver for datagram transports, whose frames may be reordered. -/
def newWithReplayWindow (key : Key) (size : Nat) : ReceiveCipher :=
  { key := key, replay := .window (ReplayWindow.new size) }

/-- Decrypt a frame of a 12-byte nonce and a ciphertext.  The replay state
advances only after authentication succeeded. -/
def decrypt (aead : Aead) (cipher : ReceiveCipher) (frame : Bytes) :
    Except ShphError Bytes × ReceiveCipher :=
  if hshort : frame.length < 12 then
    (.error (.crypto "ciphertext too short"), cipher)
  else
    let nonce : AeadNonce := ⟨frame.take 12, by simp; omega⟩
    match nonceCounter nonce.val with
    | .error error => (.error error, cipher)
    | .ok counter =>
        match cipher.replay.candidate counter with
        | none => (.error (.crypto "replay or stale nonce rejected"), cipher)
        | some next =>
            match aead.decrypt cipher.key nonce (frame.drop 12) with
            | none => (.error aeadError, cipher)
            | some plaintext => (.ok plaintext, { cipher with replay := next })

end ReceiveCipher

theorem nonceBytes_inj {left right : Nat} (hleft : left < 2 ^ 64)
    (hright : right < 2 ^ 64) (heq : nonceBytes left = nonceBytes right) :
    left = right := by
  have hval := congrArg FixedBytes.val heq
  simp only [nonceBytes, List.append_cancel_left_eq] at hval
  exact bigEndian_inj (by simpa using hleft) (by simpa using hright) hval

/-- The nonces that pass the canonical-form check are exactly the counter
nonces of 64-bit counters. -/
theorem nonceCounter_eq_ok_iff (nonce : AeadNonce) (counter : Nat) :
    nonceCounter nonce.val = .ok counter ↔
      counter < 2 ^ 64 ∧ nonce = nonceBytes counter := by
  have hdrop : (nonce.val.drop 4).length = 8 := by
    rw [List.length_drop, nonce.length_eq]
  have htake : (nonce.val.drop 4).take 8 = nonce.val.drop 4 :=
    List.take_of_length_le hdrop.le
  simp only [nonceCounter, bind_eq_ok_iff, ensure_eq_ok_iff, htake,
    pure_eq_ok_iff, nonce.length_eq, exists_const]
  constructor
  · rintro ⟨_, hstart, rfl⟩
    refine ⟨?_, FixedBytes.ext ?_⟩
    · have hlt := ofBigEndian_lt (nonce.val.drop 4)
      rw [hdrop] at hlt
      simpa using hlt
    · have hback := bigEndian_ofBigEndian (nonce.val.drop 4)
      rw [hdrop] at hback
      change nonce.val = List.replicate 4 0 ++
        bigEndian 8 (ofBigEndian (nonce.val.drop 4))
      rw [hback, ← hstart, List.take_append_drop]
  · rintro ⟨hcounter, rfl⟩
    refine ⟨by simp, ?_, ?_⟩
    · simp [nonceBytes]
    · have hwidth : counter < 256 ^ 8 := by simpa using hcounter
      simpa [nonceBytes] using ofBigEndian_bigEndian hwidth

theorem nonceCounter_nonceBytes {counter : Nat} (hcounter : counter < 2 ^ 64) :
    nonceCounter (nonceBytes counter).val = .ok counter :=
  (nonceCounter_eq_ok_iff _ _).mpr ⟨hcounter, rfl⟩

namespace ReceiveCipher

/-- Everything a call of `decrypt` can do: refuse and change nothing, or
accept a frame with a canonical nonce and commit the candidate state. -/
theorem decrypt_cases (aead : Aead) (cipher : ReceiveCipher) (frame : Bytes) :
    (∃ error, cipher.decrypt aead frame = (.error error, cipher)) ∨
      ∃ counter body next plaintext,
        counter < 2 ^ 64 ∧ frame = (nonceBytes counter).val ++ body ∧
        cipher.replay.candidate counter = some next ∧
        aead.decrypt cipher.key (nonceBytes counter) body = some plaintext ∧
        cipher.decrypt aead frame =
          (.ok plaintext, { cipher with replay := next }) := by
  by_cases hshort : frame.length < 12
  · exact Or.inl ⟨.crypto "ciphertext too short", by
      simp only [decrypt, dif_pos hshort]⟩
  · have hlength : (frame.take 12).length = 12 := by simp; omega
    cases hcounter : nonceCounter (frame.take 12) with
    | error error =>
        exact Or.inl ⟨error, by simp only [decrypt, dif_neg hshort, hcounter]⟩
    | ok counter =>
        obtain ⟨hlt, hnonce⟩ :=
          (nonceCounter_eq_ok_iff ⟨frame.take 12, hlength⟩ counter).mp hcounter
        cases hnext : cipher.replay.candidate counter with
        | none =>
            exact Or.inl ⟨.crypto "replay or stale nonce rejected", by
              simp only [decrypt, dif_neg hshort, hcounter, hnext]⟩
        | some next =>
            cases hplain : aead.decrypt cipher.key ⟨frame.take 12, hlength⟩
                (frame.drop 12) with
            | none =>
                exact Or.inl ⟨aeadError, by
                  simp only [decrypt, dif_neg hshort, hcounter, hnext, hplain]⟩
            | some plaintext =>
                refine Or.inr ⟨counter, frame.drop 12, next, plaintext, hlt,
                  ?_, hnext, ?_, ?_⟩
                · rw [← hnonce, List.take_append_drop]
                · rw [← hnonce, hplain]
                · simp only [decrypt, dif_neg hshort, hcounter, hnext, hplain]

/-- A refused frame leaves the replay state exactly as it was. -/
theorem decrypt_error_unchanged (aead : Aead) (cipher : ReceiveCipher)
    (frame : Bytes) {error : ShphError}
    (herror : (cipher.decrypt aead frame).1 = .error error) :
    (cipher.decrypt aead frame).2 = cipher := by
  rcases decrypt_cases aead cipher frame with
    ⟨_, hcall⟩ | ⟨_, _, _, _, _, _, _, _, hcall⟩
  · rw [hcall]
  · rw [hcall] at herror
    simp at herror

/-- A frame with a canonical nonce, an admissible counter and an authentic
body is accepted. -/
theorem decrypt_of_candidate {aead : Aead} {cipher : ReceiveCipher}
    {counter : Nat} {body plaintext : Bytes} {next : ReplayState}
    (hcounter : counter < 2 ^ 64)
    (hnext : cipher.replay.candidate counter = some next)
    (hplain : aead.decrypt cipher.key (nonceBytes counter) body =
      some plaintext) :
    cipher.decrypt aead ((nonceBytes counter).val ++ body) =
      (.ok plaintext, { cipher with replay := next }) := by
  have hlength := (nonceBytes counter).length_eq
  have htake : ((nonceBytes counter).val ++ body).take 12 =
      (nonceBytes counter).val := by
    rw [List.take_append_of_le_length hlength.ge,
      List.take_of_length_le hlength.le]
  have hdrop : ((nonceBytes counter).val ++ body).drop 12 = body := by
    rw [List.drop_append_of_le_length hlength.ge,
      List.drop_of_length_le hlength.le, List.nil_append]
  have hlong : ¬ ((nonceBytes counter).val ++ body).length < 12 := by
    rw [List.length_append, hlength]
    omega
  unfold decrypt
  rw [dif_neg hlong]
  dsimp only
  simp only [htake, hdrop, nonceCounter_nonceBytes hcounter, hnext, hplain]

/-- What a receiver with a replay window does with an authentic frame. -/
theorem decrypt_sealed {aead : Aead} {cipher : ReceiveCipher}
    {window : ReplayWindow} {nonces : List Nat} {nonce : Nat}
    {body plaintext : Bytes} (hreplay : cipher.replay = .window window)
    (hrepresents : window.Represents nonces) (hnonce : nonce < 2 ^ 64)
    (hplain : aead.decrypt cipher.key (nonceBytes nonce) body =
      some plaintext) :
    (¬ Admissible (window.size + 1) nonces nonce ∧
        ∃ error, cipher.decrypt aead ((nonceBytes nonce).val ++ body) =
          (.error error, cipher)) ∨
      (Admissible (window.size + 1) nonces nonce ∧
        ∃ next : ReplayWindow,
          cipher.decrypt aead ((nonceBytes nonce).val ++ body) =
            (.ok plaintext, { cipher with replay := .window next }) ∧
          next.Represents (nonces ++ [nonce]) ∧ next.size = window.size) := by
  obtain ⟨hanswer, hnext, hkept⟩ :=
    ReplayWindow.checkAndInsert_simulates hrepresents nonce
  rw [SlidingWindow.insert] at hanswer hnext
  by_cases hadmissible : Admissible (window.size + 1) nonces nonce
  · rw [if_pos hadmissible] at hanswer hnext
    refine Or.inr ⟨hadmissible, (window.checkAndInsert nonce).2, ?_, hnext,
      hkept⟩
    apply decrypt_of_candidate hnonce _ hplain
    rw [hreplay, ReplayState.candidate, if_pos hanswer]
  · rw [if_neg hadmissible] at hanswer
    refine Or.inl ⟨hadmissible, ?_⟩
    rcases cipher.decrypt_cases aead ((nonceBytes nonce).val ++ body) with
      ⟨error, hcall⟩ | ⟨counter, other, next, text, hlt, heq, hcandidate, _, _⟩
    · exact ⟨error, hcall⟩
    · exfalso
      obtain ⟨hval, _⟩ := FixedBytes.append_inj heq
      obtain rfl := nonceBytes_inj hnonce hlt hval
      rw [hreplay, ReplayState.candidate, hanswer] at hcandidate
      simp at hcandidate

end ReceiveCipher

/-- The frames a fresh sender produced for a list of plaintexts, each next to
its plaintext.  Refused plaintexts leave no frame. -/
def sentFrames (aead : Aead) (key : Key) (plaintexts : List Bytes) :
    List (Bytes × Bytes) :=
  successes (trace (SendCipher.encrypt aead) (SendCipher.new key) plaintexts)

theorem SendCipher.encrypt_cases (aead : Aead) (cipher : SendCipher)
    (plaintext : Bytes) :
    (∃ error, cipher.encrypt aead plaintext = (.error error, cipher)) ∨
      ∃ ciphertext, cipher.nonce < aeadNonceLimit ∧
        aead.encrypt cipher.key (nonceBytes cipher.nonce) plaintext =
          some ciphertext ∧
        cipher.encrypt aead plaintext =
          (.ok ((nonceBytes cipher.nonce).val ++ ciphertext),
            { cipher with nonce := cipher.nonce + 1 }) := by
  unfold SendCipher.encrypt
  split
  · exact Or.inl ⟨_, rfl⟩
  · rename_i hlimit
    cases hseal : aead.encrypt cipher.key (nonceBytes cipher.nonce)
        plaintext with
    | none => exact Or.inl ⟨_, rfl⟩
    | some ciphertext =>
        exact Or.inr ⟨ciphertext, Nat.lt_of_not_le hlimit, rfl, rfl⟩

/-- The sender invariant: frame number `i` is sealed under nonce `i`, and the
counter is the number of frames produced so far. -/
structure SendCipher.Sent (aead : Aead) (key : Key)
    (sent : List (Bytes × Bytes)) (cipher : SendCipher) : Prop where
  key_eq : cipher.key = key
  nonce_eq : cipher.nonce = sent.length
  nonce_le : cipher.nonce ≤ aeadNonceLimit
  sealed : ∀ (index : Nat) (plaintext frame : Bytes),
    sent[index]? = some (plaintext, frame) →
      ∃ ciphertext,
        aead.encrypt key (nonceBytes index) plaintext = some ciphertext ∧
          frame = (nonceBytes index).val ++ ciphertext

theorem SendCipher.encrypt_sent {aead : Aead} {key : Key}
    {history : List (Bytes × Except ShphError Bytes)} {cipher : SendCipher}
    (hsent : Sent aead key (successes history) cipher) (plaintext : Bytes) :
    Sent aead key
      (successes (history ++ [(plaintext, (cipher.encrypt aead plaintext).1)]))
      (cipher.encrypt aead plaintext).2 := by
  rw [successes_append]
  rcases encrypt_cases aead cipher plaintext with
    ⟨error, hcall⟩ | ⟨ciphertext, hlimit, hseal, hcall⟩
  · rw [hcall]
    simpa using hsent
  · rw [hcall, successes_singleton_ok]
    refine ⟨hsent.key_eq, by simp [hsent.nonce_eq], hlimit, ?_⟩
    intro index text frame hget
    by_cases hold : index < (successes history).length
    · rw [List.getElem?_append_left hold] at hget
      exact hsent.sealed index text frame hget
    · rw [List.getElem?_append_right (Nat.le_of_not_lt hold),
        List.getElem?_singleton] at hget
      split at hget
      · rename_i hlast
        have hindex : index = cipher.nonce := by
          rw [hsent.nonce_eq]
          omega
        simp only [Option.some.injEq, Prod.mk.injEq] at hget
        refine ⟨ciphertext, ?_, ?_⟩
        · rw [hindex, ← hget.1, ← hsent.key_eq]
          exact hseal
        · rw [hindex, ← hget.2]
      · simp at hget

theorem sentFrames_sent (aead : Aead) (key : Key) (plaintexts : List Bytes) :
    SendCipher.Sent aead key (sentFrames aead key plaintexts)
      (final (SendCipher.encrypt aead) (SendCipher.new key) plaintexts) := by
  apply history_invariant
    (P := fun history cipher =>
      SendCipher.Sent aead key (successes history) cipher)
  · exact ⟨rfl, rfl, Nat.zero_le _, by simp⟩
  · intro history cipher plaintext hsent
    exact SendCipher.encrypt_sent hsent plaintext

def ReplayState.isStrict : ReplayState → Bool
  | .strict _ => true
  | .window _ => false

/-- The replay state stands for the counters accepted so far. -/
def ReplayState.Holds : ReplayState → List Nat → Prop
  | .strict last, seen => seen.getLast? = last ∧ seen.Pairwise (· < ·)
  | .window bitmap, seen => bitmap.Represents seen ∧ seen.Nodup

theorem ReplayState.Holds.nodup {state : ReplayState} {seen : List Nat}
    (hholds : state.Holds seen) : seen.Nodup := by
  cases state with
  | strict last => exact hholds.2.imp Nat.ne_of_lt
  | window bitmap => exact hholds.2

theorem pairwise_lt_le_getLast {seen : List Nat}
    (hsorted : seen.Pairwise (· < ·)) {last : Nat}
    (hlast : seen.getLast? = some last) : ∀ old ∈ seen, old ≤ last := by
  obtain ⟨front, rfl⟩ := List.getLast?_eq_some_iff.mp hlast
  intro old hold
  rw [List.mem_append, List.mem_singleton] at hold
  rcases hold with hold | rfl
  · rw [List.pairwise_append] at hsorted
    exact Nat.le_of_lt (hsorted.2.2 old hold last (by simp))
  · exact Nat.le_refl old

/-- Committing a candidate adds exactly its counter to what the state stands
for, in either mode. -/
theorem ReplayState.candidate_holds {state next : ReplayState}
    {seen : List Nat} {counter : Nat} (hholds : state.Holds seen)
    (hnext : state.candidate counter = some next) :
    next.Holds (seen ++ [counter]) ∧ next.isStrict = state.isStrict := by
  cases state with
  | strict last =>
      simp only [candidate] at hnext
      split at hnext
      · simp at hnext
      · rename_i hfresh
        rw [Option.some.injEq] at hnext
        subst hnext
        refine ⟨⟨by simp, ?_⟩, rfl⟩
        rw [List.pairwise_append]
        refine ⟨hholds.2, List.pairwise_singleton _ _, ?_⟩
        intro old hold new hnew
        rw [List.mem_singleton] at hnew
        subst hnew
        obtain ⟨top, htop⟩ := List.getLast?_isSome.mpr
          (List.ne_nil_of_mem hold) |> Option.isSome_iff_exists.mp
        have hle := pairwise_lt_le_getLast hholds.2 htop old hold
        rw [← hholds.1, htop] at hfresh
        simp only [Option.any_some, decide_eq_true_eq] at hfresh
        omega
  | window bitmap =>
      simp only [candidate] at hnext
      split at hnext
      · rename_i haccept
        rw [Option.some.injEq] at hnext
        subst hnext
        obtain ⟨hanswer, hrep, _⟩ :=
          ReplayWindow.checkAndInsert_simulates hholds.1 counter
        rw [hanswer] at haccept
        unfold SlidingWindow.insert at haccept hrep
        split at haccept
        · rename_i hadmissible
          rw [if_pos hadmissible] at hrep
          exact ⟨⟨hrep, nodup_snoc_of_admissible hholds.2 hadmissible⟩, rfl⟩
        · simp at haccept
      · simp at hnext

namespace ReceiveCipher

/-- A receiver of either kind: strict for streams, or with a replay window of
the given size for datagrams. -/
def ofMode (key : Key) : Option Nat → ReceiveCipher
  | none => new key
  | some size => newWithReplayWindow key size

/-- The cipher authenticates only frames from `sent`. -/
def Ideal (aead : Aead) (key : Key) (sent : List (Bytes × Bytes)) : Prop :=
  ∀ (nonce : AeadNonce) (body plaintext : Bytes),
    aead.decrypt key nonce body = some plaintext →
      ∃ entry ∈ sent, entry.2 = nonce.val ++ body

/-- The receiver invariant: the accepted frames are sent frames, picked by the
list of counters the replay state stands for. -/
def Accepted (key : Key) (sent : List (Bytes × Bytes)) (strict : Bool)
    (accepted : List (Bytes × Bytes)) (cipher : ReceiveCipher) : Prop :=
  cipher.key = key ∧ cipher.replay.isStrict = strict ∧
    ∃ order : List (Fin sent.length),
      cipher.replay.Holds (order.map Fin.val) ∧
        accepted = order.map fun index => (sent[index]).swap

/-- An authentic frame is the sent frame its counter numbers. -/
theorem frame_eq_sent {aead : Aead} {key : Key}
    {sent : List (Bytes × Bytes)} {sender : SendCipher}
    (hsent : SendCipher.Sent aead key sent sender)
    (hideal : Ideal aead key sent) {counter : Nat} {body plaintext : Bytes}
    (hcounter : counter < 2 ^ 64)
    (hplain : aead.decrypt key (nonceBytes counter) body = some plaintext) :
    ∃ hlt : counter < sent.length,
      sent[counter] = (plaintext, (nonceBytes counter).val ++ body) := by
  obtain ⟨⟨text, frame⟩, hmem, hframe⟩ := hideal _ _ _ hplain
  obtain ⟨index, hlt, hget⟩ := List.getElem_of_mem hmem
  obtain ⟨ciphertext, hseal, hform⟩ := hsent.sealed index text frame
    (by rw [List.getElem?_eq_getElem hlt, hget])
  have hbound : index < 2 ^ 64 := by
    have hle := hsent.nonce_le
    rw [hsent.nonce_eq, aeadNonceLimit] at hle
    omega
  dsimp only at hframe
  obtain ⟨hnonce, hbody⟩ :=
    FixedBytes.append_inj (hform.symm.trans hframe)
  have hindex := nonceBytes_inj hbound hcounter hnonce
  subst hindex
  have htext : text = plaintext := by
    have hback := aead.decrypt_encrypt hseal
    rw [hbody, hplain, Option.some.injEq] at hback
    exact hback.symm
  exact ⟨hlt, by rw [hget, htext, hframe]⟩

theorem decrypt_accepted {aead : Aead} {key : Key}
    {sent : List (Bytes × Bytes)} {sender : SendCipher} {strict : Bool}
    (hsent : SendCipher.Sent aead key sent sender)
    (hideal : Ideal aead key sent)
    {history : List (Bytes × Except ShphError Bytes)} {cipher : ReceiveCipher}
    (hinv : Accepted key sent strict (successes history) cipher)
    (frame : Bytes) :
    Accepted key sent strict
      (successes (history ++ [(frame, (cipher.decrypt aead frame).1)]))
      (cipher.decrypt aead frame).2 := by
  rw [successes_append]
  rcases decrypt_cases aead cipher frame with
    ⟨error, hcall⟩ | ⟨counter, body, next, plaintext, hcounter, hframe, hnext,
      hplain, hcall⟩
  · rw [hcall]
    simpa using hinv
  · obtain ⟨hkey, hstrict, order, hholds, haccepted⟩ := hinv
    rw [hkey] at hplain
    obtain ⟨hlt, hget⟩ := frame_eq_sent hsent hideal hcounter hplain
    obtain ⟨hnextHolds, hmode⟩ := ReplayState.candidate_holds hholds hnext
    rw [hcall, successes_singleton_ok]
    refine ⟨hkey, hmode.trans hstrict, order ++ [⟨counter, hlt⟩], ?_, ?_⟩
    · simpa using hnextHolds
    · rw [List.map_append, ← haccepted, List.map_singleton]
      simp [hget, hframe]

theorem run_accepted {aead : Aead} {key : Key} {plaintexts : List Bytes}
    (hideal : Ideal aead key (sentFrames aead key plaintexts))
    (mode : Option Nat) (inputs : List Bytes) :
    Accepted key (sentFrames aead key plaintexts) mode.isNone
      (successes (trace (decrypt aead) (ofMode key mode) inputs))
      (final (decrypt aead) (ofMode key mode) inputs) := by
  apply history_invariant (P := fun history cipher =>
    Accepted key (sentFrames aead key plaintexts) mode.isNone
      (successes history) cipher)
  · cases mode with
    | none => exact ⟨rfl, rfl, [], ⟨rfl, List.Pairwise.nil⟩, rfl⟩
    | some size =>
        exact ⟨rfl, rfl, [],
          ⟨ReplayWindow.new_represents size, List.nodup_nil⟩, rfl⟩
  · intro history cipher frame hinv
    exact decrypt_accepted (sentFrames_sent aead key plaintexts) hideal hinv
      frame

theorem sent_frame_inj {aead : Aead} {key : Key}
    {sent : List (Bytes × Bytes)} {sender : SendCipher}
    (hsent : SendCipher.Sent aead key sent sender)
    {left right : Fin sent.length}
    (hframe : (sent[left]).2 = (sent[right]).2) : left = right := by
  have hsealed (index : Fin sent.length) := hsent.sealed index.val
    (sent[index]).1 (sent[index]).2 (List.getElem?_eq_getElem index.isLt)
  have hbound (index : Fin sent.length) : index.val < 2 ^ 64 := by
    have hlt := index.isLt
    have hle := hsent.nonce_le
    rw [hsent.nonce_eq, aeadNonceLimit] at hle
    omega
  obtain ⟨_, _, hleft⟩ := hsealed left
  obtain ⟨_, _, hright⟩ := hsealed right
  rw [hleft, hright] at hframe
  have hnonce := (FixedBytes.append_inj hframe).1
  exact Fin.ext (nonceBytes_inj (hbound left) (hbound right) hnonce)

/-- Delivery under any adversary.  Whatever order, duplication, loss and
insertion the inputs show, every accepted input is a distinct sent frame with
its plaintext, a strict receiver accepts them in send order, and a refused
input changes neither the state nor the outcome of any later input. -/
theorem decrypt_run_sound (aead : Aead) (key : Key) (plaintexts : List Bytes)
    (mode : Option Nat) (inputs : List Bytes)
    (hideal : Ideal aead key (sentFrames aead key plaintexts)) :
    let sent := sentFrames aead key plaintexts
    let run := trace (decrypt aead) (ofMode key mode)
    let accepted := successes (run inputs)
    (accepted.map Prod.fst).Nodup ∧
      (∃ order : List (Fin sent.length), order.Nodup ∧
        accepted = order.map fun index => (sent[index]).swap) ∧
      (mode = none →
        (accepted.map Prod.snd).Sublist (sent.map Prod.fst)) ∧
      (∀ (cipher : ReceiveCipher) (frame : Bytes) (error : ShphError),
        (cipher.decrypt aead frame).1 = .error error →
          (cipher.decrypt aead frame).2 = cipher) ∧
      ∀ (before after : List Bytes) (forged : Bytes) (error : ShphError),
        ((final (decrypt aead) (ofMode key mode) before).decrypt aead
          forged).1 = .error error →
        run (before ++ forged :: after) =
          run before ++ (forged, .error error) ::
            (run (before ++ after)).drop before.length := by
  intro sent run accepted
  obtain ⟨_, hstrict, order, hholds, haccepted⟩ :=
    run_accepted hideal mode inputs
  have hnodup : order.Nodup := hholds.nodup.of_map
  refine ⟨?_, ⟨order, hnodup, haccepted⟩, ?_, ?_, ?_⟩
  · rw [show accepted = _ from haccepted, List.map_map]
    apply hnodup.map_on
    intro left _ right _ heq
    exact sent_frame_inj (sentFrames_sent aead key plaintexts) heq
  · intro hmode
    have hsorted : order.Pairwise (· < ·) := by
      subst hmode
      cases hreplay : (final (decrypt aead) (ofMode key none) inputs).replay with
      | strict last =>
          rw [hreplay] at hholds
          have hincreasing := hholds.2
          rw [List.pairwise_map] at hincreasing
          exact hincreasing
      | window bitmap =>
          rw [hreplay] at hstrict
          simp [ReplayState.isStrict] at hstrict
    have hsub := (List.map_getElem_sublist hsorted).map Prod.fst
    change (accepted.map Prod.snd).Sublist (sent.map Prod.fst)
    rw [show accepted = _ from haccepted, List.map_map]
    rw [List.map_map] at hsub
    exact hsub
  · intro cipher frame error herror
    exact decrypt_error_unchanged aead cipher frame herror
  · intro before after forged error herror
    have hkeep := decrypt_error_unchanged aead _ forged herror
    have hlength : (run before).length = before.length := trace_length _ _ _
    change trace _ _ _ = trace _ _ _ ++ _ :: (trace _ _ _).drop _
    rw [trace_append_cons_of_unchanged hkeep, herror, trace_append,
      List.drop_append_of_le_length hlength.ge,
      List.drop_of_length_le hlength.le, List.nil_append]

namespace SessionCipherWitness

/-- The frame body of `hello` under the key `11 … 11` and nonce zero. -/
def helloBody : Bytes :=
  [205, 217, 251, 250, 22, 156, 50, 148, 104, 36, 164, 21, 26, 218, 12, 165,
    230, 69, 228, 99, 228]

def sessionKey : Key := FixedBytes.replicate 32 0x11

def hello : Bytes := [104, 101, 108, 108, 111]

def aead : Aead := Aead.single sessionKey (nonceBytes 0) hello helloBody rfl

theorem ideal : Ideal aead sessionKey (sentFrames aead sessionKey [hello]) := by
  intro nonce body plaintext hplain
  have hpoint : nonce = nonceBytes 0 ∧ body = helloBody := by
    simp only [aead, Aead.single, true_and] at hplain
    split at hplain
    · rename_i hpoint
      exact hpoint
    · simp at hplain
  refine ⟨(hello, (nonceBytes 0).val ++ helloBody), ?_, ?_⟩
  · decide
  · rw [hpoint.1, hpoint.2]

end SessionCipherWitness

open SessionCipherWitness in
/-- One frame, delivered twice with a forgery in between, to a strict receiver
and to one with a replay window. -/
theorem decrypt_run_sound_hello :
    let frame := (nonceBytes 0).val ++ helloBody
    let forged := (nonceBytes 7).val ++ helloBody
    (successes (trace (decrypt aead) (ofMode sessionKey none)
        [forged, frame, forged, frame])).map Prod.snd = [hello] ∧
      ((successes (trace (decrypt aead) (ofMode sessionKey none)
        [forged, frame, forged, frame])).map Prod.fst).Nodup ∧
      ((successes (trace (decrypt aead) (ofMode sessionKey (some 64))
        [forged, frame, forged, frame])).map Prod.fst).Nodup :=
  ⟨by decide,
    (decrypt_run_sound aead sessionKey [hello] none _ ideal).1,
    (decrypt_run_sound aead sessionKey [hello] (some 64) _ ideal).1⟩

end ReceiveCipher

end Shph
