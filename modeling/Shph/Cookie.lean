/-
Stateless pre-authentication cookies.  A cookie is a MAC over the address of a
peer and the epoch in which it was issued.  The authority keeps the secret of
the present epoch and the one before it, and draws a new one when the clock
has moved on.
-/
import Shph.HandshakeSpec

namespace Shph

open ByteCodec StatefulRun

def cookieEpochSecs : Nat := 30

def cookieTagBytes : Nat := 32

def cookieDomain : Bytes := textBytes "shph-preauth-cookie-v1"

inductive IpAddr where
  | v4 (octets : FixedBytes 4)
  | v6 (octets : FixedBytes 16)
deriving Repr, DecidableEq

/-- The address `a.b.c.d`. -/
def IpAddr.ofOctets (a b c d : UInt8) : IpAddr := .v4 ⟨[a, b, c, d], rfl⟩

structure SocketAddr where
  ip : IpAddr
  port : UInt16
deriving Repr, DecidableEq

/-- The message under the MAC: the address, behind a byte for its family, the
port and the epoch. -/
def cookieMessage (peer : SocketAddr) (epoch : Nat) : Bytes :=
  let address : Bytes :=
    match peer.ip with
    | .v4 octets => 4 :: octets.val
    | .v6 octets => 6 :: octets.val
  cookieDomain ++ (address ++
    (bigEndian 2 peer.port.toNat ++ bigEndian 8 epoch))

/-- The epoch of a reading of the clock in seconds. -/
def currentEpoch (now : Option UInt64) : Except ShphError Nat := do
  let secs ← okOr now (.crypto "system clock before unix epoch")
  return secs.toNat / cookieEpochSecs

def constantTimeDiff (left right : Bytes) : UInt8 :=
  (left.zip right).foldl (fun diff pair => diff ||| (pair.1 ^^^ pair.2))
    (if left.length ≠ right.length then 1 else 0)

structure StatelessCookieAuthority where
  currentSecret : Key
  previousSecret : Key
  currentEpoch : Nat
deriving Repr, DecidableEq

/-- What a call meets: the clock, and the random bytes it would draw. -/
structure CookieEnv where
  now : Option UInt64
  entropy : Option Key
deriving Repr, DecidableEq

def entropyError : ShphError := .crypto "ring operation failed"

namespace StatelessCookieAuthority

def new (first second : Option Key) (now : Option UInt64) :
    Except ShphError StatelessCookieAuthority := do
  let currentSecret ← okOr first entropyError
  let previousSecret ← okOr second entropyError
  let epoch ← Shph.currentEpoch now
  return { currentSecret, previousSecret, currentEpoch := epoch }

/-- One rotation, however many epochs have passed. -/
def rotateTo (authority : StatelessCookieAuthority) (epoch : Nat)
    (entropy : Option Key) : Except ShphError Unit × StatelessCookieAuthority :=
  if epoch ≤ authority.currentEpoch then (.ok (), authority)
  else
    match entropy with
    | none => (.error entropyError, authority)
    | some nextSecret =>
        (.ok (),
          { currentSecret := nextSecret
            previousSecret := authority.currentSecret
            currentEpoch := epoch })

/-- `hmac` is HMAC-SHA256 of a message under a key. -/
def mac (hmac : Key → Bytes → FixedBytes 32) (secret : Key) (peer : SocketAddr)
    (epoch : Nat) : FixedBytes 32 :=
  hmac secret (cookieMessage peer epoch)

def issue (hmac : Key → Bytes → FixedBytes 32)
    (authority : StatelessCookieAuthority) (peer : SocketAddr)
    (env : CookieEnv) :
    Except ShphError (FixedBytes 32) × StatelessCookieAuthority :=
  match Shph.currentEpoch env.now with
  | .error error => (.error error, authority)
  | .ok epoch =>
      match authority.rotateTo epoch env.entropy with
      | (.error error, authority) => (.error error, authority)
      | (.ok (), authority) =>
          (.ok (mac hmac authority.currentSecret peer epoch), authority)

/-- The tags a cookie is compared with: both secrets, each with the epoch and
the one before it. -/
def expectedTags (hmac : Key → Bytes → FixedBytes 32)
    (authority : StatelessCookieAuthority) (peer : SocketAddr) (epoch : Nat) :
    List (FixedBytes 32) :=
  [authority.currentSecret, authority.previousSecret].flatMap fun secret =>
    [epoch, epoch - 1].map fun candidateEpoch =>
      mac hmac secret peer candidateEpoch

/-- All tags are compared, and the outcomes accumulated. -/
def countMatches (cookie : Bytes) (tags : List (FixedBytes 32)) : UInt8 :=
  tags.foldl (fun found expected =>
    found ||| (if constantTimeDiff cookie expected.val = 0 then 1 else 0)) 0

def verify (hmac : Key → Bytes → FixedBytes 32)
    (authority : StatelessCookieAuthority) (peer : SocketAddr) (cookie : Bytes)
    (env : CookieEnv) : Except ShphError Bool × StatelessCookieAuthority :=
  if cookie.length ≠ cookieTagBytes then (.ok false, authority)
  else
    match Shph.currentEpoch env.now with
    | .error error => (.error error, authority)
    | .ok epoch =>
        match authority.rotateTo epoch env.entropy with
        | (.error error, authority) => (.error error, authority)
        | (.ok (), authority) =>
            let found :=
              countMatches cookie (authority.expectedTags hmac peer epoch)
            (.ok (found ≠ 0), authority)

end StatelessCookieAuthority

inductive CookieRequest where
  | issue (peer : SocketAddr)
  | verify (peer : SocketAddr) (cookie : Bytes)
deriving Repr, DecidableEq

inductive CookieReply where
  | issued (cookie : FixedBytes 32)
  | verified (accepted : Bool)
deriving Repr, DecidableEq

structure CookieCall where
  request : CookieRequest
  env : CookieEnv
deriving Repr, DecidableEq

/-- One call on the authority. -/
def StatelessCookieAuthority.serve (hmac : Key → Bytes → FixedBytes 32)
    (authority : StatelessCookieAuthority) (call : CookieCall) :
    Except ShphError CookieReply × StatelessCookieAuthority :=
  match call.request with
  | .issue peer =>
      let (result, authority) := authority.issue hmac peer call.env
      (result.map .issued, authority)
  | .verify peer cookie =>
      let (result, authority) := authority.verify hmac peer cookie call.env
      (result.map .verified, authority)

/-- The epoch in which a call is made, if the clock can be read. -/
def CookieCall.epoch (call : CookieCall) : Option Nat :=
  call.env.now.map fun secs => secs.toNat / cookieEpochSecs

theorem CookieCall.epoch_lt {call : CookieCall} {epoch : Nat}
    (hepoch : call.epoch = some epoch) : epoch < 256 ^ 8 := by
  rw [CookieCall.epoch, Option.map_eq_some_iff] at hepoch
  obtain ⟨secs, _, rfl⟩ := hepoch
  have hlt := secs.toNat_lt
  exact (Nat.div_le_self _ _).trans_lt hlt

theorem CookieCall.currentEpoch_eq {call : CookieCall} {epoch : Nat}
    (hepoch : call.epoch = some epoch) :
    currentEpoch call.env.now = .ok epoch := by
  rw [CookieCall.epoch, Option.map_eq_some_iff] at hepoch
  obtain ⟨secs, hsecs, rfl⟩ := hepoch
  rw [currentEpoch, hsecs]
  rfl

theorem constantTimeDiff_eq_zero_iff (left right : Bytes) :
    constantTimeDiff left right = 0 ↔ left = right := by
  unfold constantTimeDiff
  by_cases hlength : left.length = right.length
  · simp [hlength, foldl_diff_eq_zero_iff hlength]
  · have hne : left ≠ right := fun heq => hlength (congrArg List.length heq)
    have hkeep (pairs : List (UInt8 × UInt8)) (start : UInt8)
        (hstart : start ≠ 0) :
        pairs.foldl (fun diff pair => diff ||| (pair.1 ^^^ pair.2)) start ≠
          0 := by
      induction pairs generalizing start with
      | nil => exact hstart
      | cons pair pairs ih =>
          apply ih
          simp [UInt8.or_eq_zero_iff, hstart]
    rw [if_pos hlength]
    exact iff_of_false (hkeep _ 1 (by decide)) hne

/-- The message names the address, the port and the epoch. -/
theorem cookieMessage_inj {peer other : SocketAddr} {epoch later : Nat}
    (hepoch : epoch < 256 ^ 8) (hlater : later < 256 ^ 8)
    (heq : cookieMessage peer epoch = cookieMessage other later) :
    peer = other ∧ epoch = later := by
  have hrest : ∀ {left right : Bytes},
      left ++ (bigEndian 2 peer.port.toNat ++ bigEndian 8 epoch) =
        right ++ (bigEndian 2 other.port.toNat ++ bigEndian 8 later) →
      left.length = right.length →
      left = right ∧ peer.port = other.port ∧ epoch = later := by
    intro left right happend hlength
    obtain ⟨hleft, htail⟩ := List.append_inj happend hlength
    obtain ⟨hport, hepochs⟩ := List.append_inj htail (by simp)
    have hpeerPort := peer.port.toNat_lt
    have hotherPort := other.port.toNat_lt
    refine ⟨hleft, ?_, bigEndian_inj hepoch hlater hepochs⟩
    exact UInt16.toNat_inj.mp (bigEndian_inj (by omega) (by omega) hport)
  have haddress := List.append_cancel_left heq
  cases peer with
  | mk ip port =>
      cases other with
      | mk otherIp otherPort =>
          cases ip with
          | v4 octets =>
              cases otherIp with
              | v4 otherOctets =>
                  obtain ⟨hip, hport, hepochs⟩ := hrest haddress
                    (by simp [octets.length_eq, otherOctets.length_eq])
                  rw [List.cons.injEq] at hip
                  have hport : port = otherPort := hport
                  rw [FixedBytes.ext hip.2, hport]
                  exact ⟨rfl, hepochs⟩
              | v6 otherOctets => simp at haddress
          | v6 octets =>
              cases otherIp with
              | v4 otherOctets => simp at haddress
              | v6 otherOctets =>
                  obtain ⟨hip, hport, hepochs⟩ := hrest haddress
                    (by simp [octets.length_eq, otherOctets.length_eq])
                  rw [List.cons.injEq] at hip
                  have hport : port = otherPort := hport
                  rw [FixedBytes.ext hip.2, hport]
                  exact ⟨rfl, hepochs⟩

namespace StatelessCookieAuthority

theorem countMatches_ne_zero_iff (cookie : Bytes) (tags : List (FixedBytes 32)) :
    countMatches cookie tags ≠ 0 ↔ ∃ tag ∈ tags, cookie = tag.val := by
  have hfold (found : UInt8) :
      tags.foldl (fun found expected => found |||
          (if constantTimeDiff cookie expected.val = 0 then 1 else 0)) found =
          0 ↔ found = 0 ∧ ∀ tag ∈ tags, cookie ≠ tag.val := by
    induction tags generalizing found with
    | nil => simp
    | cons tag tags ih =>
        rw [List.foldl_cons, ih, UInt8.or_eq_zero_iff, List.forall_mem_cons,
          and_assoc]
        apply and_congr_right
        intro _
        apply and_congr_left
        intro _
        have hdiff := constantTimeDiff_eq_zero_iff cookie tag.val
        split <;> simp_all
  rw [countMatches, ne_eq, hfold 0]
  simp

variable (hmac : Key → Bytes → FixedBytes 32)

/-- The authority after a rotation. -/
def rotated (authority : StatelessCookieAuthority) (epoch : Nat)
    (secret : Key) : StatelessCookieAuthority :=
  { currentSecret := secret
    previousSecret := authority.currentSecret
    currentEpoch := epoch }

theorem rotateTo_cases (authority : StatelessCookieAuthority) (epoch : Nat)
    (entropy : Option Key) :
    (authority.rotateTo epoch entropy).2 = authority ∨
      authority.currentEpoch < epoch ∧ ∃ secret, entropy = some secret ∧
        (authority.rotateTo epoch entropy).2 =
          authority.rotated epoch secret := by
  unfold rotateTo
  split
  · exact Or.inl rfl
  · rename_i hlater
    cases entropy with
    | none => exact Or.inl rfl
    | some secret =>
        exact Or.inr ⟨Nat.lt_of_not_le hlater, secret, rfl, rfl⟩

/-- With random bytes at hand a rotation reaches the epoch it is given. -/
theorem rotateTo_of_le {authority : StatelessCookieAuthority} {epoch : Nat}
    (hle : authority.currentEpoch ≤ epoch) {entropy : Option Key}
    (hentropy : entropy.isSome = true) :
    ∃ next, authority.rotateTo epoch entropy = (.ok (), next) ∧
      next.currentEpoch = epoch := by
  unfold rotateTo
  split
  · rename_i hge
    exact ⟨authority, rfl, Nat.le_antisymm hle hge⟩
  · cases entropy with
    | none => simp at hentropy
    | some secret => exact ⟨_, rfl, rfl⟩

/-- All a call can do to the authority is rotate it. -/
theorem serve_state_cases (authority : StatelessCookieAuthority)
    (call : CookieCall) :
    (serve hmac authority call).2 = authority ∨
      ∃ epoch secret, call.epoch = some epoch ∧
        call.env.entropy = some secret ∧ authority.currentEpoch < epoch ∧
        (serve hmac authority call).2 = authority.rotated epoch secret := by
  have hrotate (epoch : Nat) (hnow : Shph.currentEpoch call.env.now = .ok epoch)
      (hstate : (serve hmac authority call).2 =
        (authority.rotateTo epoch call.env.entropy).2) :
      (serve hmac authority call).2 = authority ∨
        ∃ epoch secret, call.epoch = some epoch ∧
          call.env.entropy = some secret ∧ authority.currentEpoch < epoch ∧
          (serve hmac authority call).2 = authority.rotated epoch secret := by
    have hepoch : call.epoch = some epoch := by
      rw [Shph.currentEpoch] at hnow
      simp only [bind_eq_ok_iff, okOr_eq_ok_iff, pure_eq_ok_iff] at hnow
      obtain ⟨secs, hsecs, rfl⟩ := hnow
      rw [CookieCall.epoch, hsecs]
      rfl
    rcases authority.rotateTo_cases epoch call.env.entropy with hkeep |
      ⟨hlt, secret, hentropy, hnext⟩
    · exact Or.inl (hstate.trans hkeep)
    · exact Or.inr ⟨epoch, secret, hepoch, hentropy, hlt, hstate.trans hnext⟩
  cases hrequest : call.request with
  | issue peer =>
      cases hnow : Shph.currentEpoch call.env.now with
      | error error =>
          exact Or.inl (by simp [serve, hrequest, issue, hnow])
      | ok epoch =>
          apply hrotate epoch hnow
          simp only [serve, hrequest, issue, hnow]
          cases hcall : authority.rotateTo epoch call.env.entropy with
          | mk result next => cases result <;> rfl
  | verify peer cookie =>
      by_cases hlength : cookie.length ≠ cookieTagBytes
      · exact Or.inl (by simp only [serve, hrequest, verify, if_pos hlength])
      · cases hnow : Shph.currentEpoch call.env.now with
        | error error =>
            exact Or.inl (by
              simp only [serve, hrequest, verify, if_neg hlength, hnow])
        | ok epoch =>
            apply hrotate epoch hnow
            simp only [serve, hrequest, verify, if_neg hlength, hnow]
            cases hcall : authority.rotateTo epoch call.env.entropy with
            | mk result next => cases result <;> rfl

/-- The secrets a run works with: those it starts from and those it draws. -/
def runSecrets (start : StatelessCookieAuthority) (calls : List CookieCall) :
    List Key :=
  start.currentSecret :: start.previousSecret ::
    calls.filterMap fun call => call.env.entropy

/-- The epochs a run goes through. -/
def runEpochs (start : StatelessCookieAuthority) (calls : List CookieCall) :
    List Nat :=
  start.currentEpoch :: calls.filterMap CookieCall.epoch

/-- Along a run the secrets and the epoch are among those the run has seen. -/
theorem serve_run_mem (start : StatelessCookieAuthority)
    (calls : List CookieCall) :
    (final (serve hmac) start calls).currentEpoch ∈ start.runEpochs calls ∧
      (final (serve hmac) start calls).currentSecret ∈
        start.runSecrets calls ∧
      (final (serve hmac) start calls).previousSecret ∈
        start.runSecrets calls := by
  apply @history_invariant_of_mem _ _ _ (serve hmac) start
    (fun _ authority => authority.currentEpoch ∈ start.runEpochs calls ∧
      authority.currentSecret ∈ start.runSecrets calls ∧
      authority.previousSecret ∈ start.runSecrets calls) calls
  · simp [runEpochs, runSecrets]
  · intro _ authority call hcall hmem
    rcases serve_state_cases hmac authority call with hkeep |
      ⟨epoch, secret, hepoch, hentropy, _, hnext⟩
    · rw [hkeep]
      exact hmem
    · rw [hnext]
      refine ⟨?_, ?_, hmem.2.1⟩
      · apply List.mem_cons_of_mem
        exact List.mem_filterMap.mpr ⟨call, hcall, hepoch⟩
      · apply List.mem_cons_of_mem
        apply List.mem_cons_of_mem
        exact List.mem_filterMap.mpr ⟨call, hcall, hentropy⟩

/-- The authority still knows the secret of an epoch, or that epoch is two or
more epochs ago. -/
def Remembers (authority : StatelessCookieAuthority) (secret : Key)
    (epoch : Nat) : Prop :=
  authority.currentEpoch = epoch ∧ authority.currentSecret = secret ∨
    authority.currentEpoch = epoch + 1 ∧ authority.previousSecret = secret ∨
    epoch + 2 ≤ authority.currentEpoch

theorem Remembers.rotated {authority : StatelessCookieAuthority} {secret : Key}
    {epoch later : Nat} (hremembers : authority.Remembers secret epoch)
    (hlater : authority.currentEpoch < later) (fresh : Key) :
    (authority.rotated later fresh).Remembers secret epoch := by
  have hepoch : (authority.rotated later fresh).currentEpoch = later := rfl
  rcases hremembers with ⟨heq, hsecret⟩ | ⟨heq, _⟩ | hpast
  · rcases Nat.lt_or_ge (epoch + 1) later with hlt | hge
    · exact Or.inr (Or.inr hlt)
    · exact Or.inr (Or.inl ⟨by omega, hsecret⟩)
  · exact Or.inr (Or.inr (by omega))
  · exact Or.inr (Or.inr (by omega))

theorem Remembers.run {start : StatelessCookieAuthority} {secret : Key}
    {epoch : Nat} (hremembers : start.Remembers secret epoch)
    (calls : List CookieCall) :
    (final (serve hmac) start calls).Remembers secret epoch := by
  apply @history_invariant _ _ _ (serve hmac) start
    (fun _ authority => authority.Remembers secret epoch) hremembers
  intro _ authority call hauthority
  rcases serve_state_cases hmac authority call with hkeep |
    ⟨later, fresh, _, _, hlt, hnext⟩
  · rw [hkeep]
    exact hauthority
  · rw [hnext]
    exact hauthority.rotated hlt fresh

theorem serve_issued {authority after : StatelessCookieAuthority}
    {call : CookieCall} {peer : SocketAddr} {cookie : FixedBytes 32}
    {epoch : Nat} (hrequest : call.request = .issue peer)
    (hepoch : call.epoch = some epoch)
    (hle : authority.currentEpoch ≤ epoch)
    (hserve : serve hmac authority call = (.ok (.issued cookie), after)) :
    after.currentEpoch = epoch ∧
      cookie = mac hmac after.currentSecret peer epoch := by
  have hnow := CookieCall.currentEpoch_eq hepoch
  simp only [serve, hrequest, issue, hnow] at hserve
  cases hrotate : authority.rotateTo epoch call.env.entropy with
  | mk result next =>
      rw [hrotate] at hserve
      cases result with
      | error error => simp [Except.map] at hserve
      | ok done =>
          simp only [Except.map, Prod.mk.injEq, Except.ok.injEq,
            CookieReply.issued.injEq] at hserve
          rw [← hserve.1, ← hserve.2]
          refine ⟨?_, rfl⟩
          unfold rotateTo at hrotate
          split at hrotate
          · rename_i hge
            rw [Prod.mk.injEq] at hrotate
            rw [← hrotate.2]
            exact Nat.le_antisymm hle hge
          · cases hentropy : call.env.entropy with
            | none => simp [hentropy] at hrotate
            | some secret =>
                rw [hentropy, Prod.mk.injEq] at hrotate
                rw [← hrotate.2]

/-- The answer to a well-formed cookie, once the authority has rotated. -/
theorem serve_verified {authority : StatelessCookieAuthority}
    {call : CookieCall} {peer : SocketAddr} {cookie : FixedBytes 32}
    {epoch : Nat} (hrequest : call.request = .verify peer cookie.val)
    (hepoch : call.epoch = some epoch)
    (hentropy : call.env.entropy.isSome = true)
    (hle : authority.currentEpoch ≤ epoch) :
    ∃ accepted, serve hmac authority call =
        (.ok (.verified accepted), (serve hmac authority call).2) ∧
      (serve hmac authority call).2.currentEpoch = epoch ∧
      (accepted = true ↔
        cookie ∈ (serve hmac authority call).2.expectedTags hmac peer
          epoch) := by
  have hnow := CookieCall.currentEpoch_eq hepoch
  have hlength : ¬ cookie.val.length ≠ cookieTagBytes := by
    rw [cookie.length_eq]
    decide
  obtain ⟨next, hrotate, hnext⟩ := rotateTo_of_le hle hentropy
  have hserve : serve hmac authority call =
      (.ok (.verified (decide (countMatches cookie.val
        (next.expectedTags hmac peer epoch) ≠ 0))), next) := by
    simp only [serve, hrequest, verify, if_neg hlength, hnow, hrotate,
      Except.map]
  rw [hserve]
  refine ⟨_, rfl, hnext, ?_⟩
  have hmatches := countMatches_ne_zero_iff cookie.val
    (next.expectedTags hmac peer epoch)
  rw [decide_eq_true_eq]
  apply hmatches.trans
  constructor
  · rintro ⟨tag, htag, heq⟩
    rwa [FixedBytes.ext heq]
  · intro hmem
    exact ⟨cookie, hmem, rfl⟩

theorem mem_expectedTags_iff {authority : StatelessCookieAuthority}
    {peer : SocketAddr} {epoch : Nat} {tag : FixedBytes 32} :
    tag ∈ authority.expectedTags hmac peer epoch ↔
      ∃ secret ∈ [authority.currentSecret, authority.previousSecret],
        ∃ candidate ∈ [epoch, epoch - 1], mac hmac secret peer candidate =
          tag := by
  simp only [expectedTags, List.mem_flatMap, List.mem_map]

/-- No two messages of cookies have one tag under these secrets. -/
def TagsDistinct (secrets : List Key) : Prop :=
  ∀ secret ∈ secrets, ∀ other ∈ secrets, ∀ peer otherPeer epoch later,
    hmac secret (cookieMessage peer epoch) =
        hmac other (cookieMessage otherPeer later) →
      cookieMessage peer epoch = cookieMessage otherPeer later

/-- The life of a cookie.  Whatever calls come before it and in between, a
cookie is accepted for the address it was issued to in its epoch and the next
one; for any other address, and from two epochs later on, it is rejected. -/
theorem cookie_lifetime (start : StatelessCookieAuthority)
    (before between : List CookieCall) (issuing verifying : CookieCall)
    (peer other : SocketAddr) (cookie : FixedBytes 32) (issued later : Nat)
    (hissuing : issuing.request = .issue peer ∧ issuing.epoch = some issued)
    (hverifying : verifying.request = .verify other cookie.val ∧
      verifying.epoch = some later)
    (hentropy : verifying.env.entropy.isSome = true)
    (hclock : (start.runEpochs
      (before ++ issuing :: between ++ [verifying])).Pairwise (· ≤ ·))
    (hcookie : (serve hmac (final (serve hmac) start before) issuing).1 =
      .ok (.issued cookie)) :
    let authority := final (serve hmac) start (before ++ issuing :: between)
    (other = peer → later ≤ issued + 1 →
        (serve hmac authority verifying).1 = .ok (.verified true)) ∧
      (TagsDistinct hmac (start.runSecrets
          (before ++ issuing :: between ++ [verifying])) →
        other ≠ peer ∨ issued + 2 ≤ later →
        (serve hmac authority verifying).1 = .ok (.verified false)) := by
  intro authority
  obtain ⟨hissue, hissued⟩ := hissuing
  obtain ⟨hverify, hlater⟩ := hverifying
  -- the clock has not passed the present call, neither at the issue nor here
  have hpast {calls rest : List CookieCall} {call : CookieCall} {epoch : Nat}
      (hsplit : before ++ issuing :: between ++ [verifying] =
        calls ++ call :: rest) (hepoch : call.epoch = some epoch) :
      (final (serve hmac) start calls).currentEpoch ≤ epoch := by
    rw [hsplit, runEpochs, List.filterMap_append, List.filterMap_cons_some
      hepoch, ← List.cons_append, List.pairwise_append] at hclock
    exact hclock.2.2 _ (serve_run_mem hmac start calls).1 _ (by simp)
  have hbefore : (final (serve hmac) start before).currentEpoch ≤ issued :=
    hpast (List.append_assoc _ _ _) hissued
  have hnow : authority.currentEpoch ≤ later := hpast rfl hlater
  -- the authority remembers the secret of the cookie from the issue on
  generalize hstate : serve hmac (final (serve hmac) start before) issuing =
    outcome at hcookie
  obtain ⟨result, after⟩ := outcome
  dsimp only at hcookie
  subst hcookie
  obtain ⟨hepoch, hmac_eq⟩ := serve_issued hmac hissue hissued hbefore hstate
  have hauthority : authority = final (serve hmac) after between := by
    change final (serve hmac) start (before ++ issuing :: between) = _
    rw [final_append, final_cons, hstate]
  have hafter : after.Remembers after.currentSecret issued :=
    Or.inl ⟨hepoch, rfl⟩
  have hremembers : (final (serve hmac) authority [verifying]).Remembers
      after.currentSecret issued := by
    rw [hauthority, ← final_append]
    exact hafter.run hmac (between ++ [verifying])
  rw [final_cons, final_nil] at hremembers
  obtain ⟨accepted, hanswer, hcurrent, hiff⟩ :=
    serve_verified hmac hverify hlater hentropy hnow
  rw [hanswer]
  constructor
  · rintro rfl hsoon
    suffices htag : accepted = true by rw [htag]
    rw [hiff, mem_expectedTags_iff, hmac_eq]
    rcases hremembers with ⟨heq, hsecret⟩ | ⟨heq, hsecret⟩ | hpassed
    · refine ⟨after.currentSecret, by simp [hsecret], later, by simp, ?_⟩
      rw [← heq, hcurrent]
    · refine ⟨after.currentSecret, by simp [hsecret], later - 1, by simp, ?_⟩
      rw [hcurrent] at heq
      rw [heq, Nat.add_sub_cancel]
    · omega
  · intro hdistinct hwrong
    suffices htag : accepted ≠ true by
      rw [Bool.eq_false_of_not_eq_true htag]
    rw [Ne, hiff, mem_expectedTags_iff, hmac_eq]
    rintro ⟨secret, hsecret, candidate, hcandidate, htag⟩
    -- all secrets that matter here are secrets of the run
    have hsecrets := serve_run_mem hmac start
      (before ++ issuing :: between ++ [verifying])
    rw [final_append, final_cons, final_nil] at hsecrets
    have hmine : secret ∈ start.runSecrets
        (before ++ issuing :: between ++ [verifying]) := by
      simp only [List.mem_cons, List.not_mem_nil, or_false] at hsecret
      rcases hsecret with rfl | rfl
      · exact hsecrets.2.1
      · exact hsecrets.2.2
    have hissuer : after.currentSecret ∈ start.runSecrets
        (before ++ issuing :: between ++ [verifying]) := by
      have hdrawn := (serve_run_mem hmac start (before ++ [issuing])).2.1
      rw [final_append, final_cons, final_nil, hstate] at hdrawn
      simp only [runSecrets, List.filterMap_append, List.mem_cons,
        List.mem_append] at hdrawn ⊢
      rcases hdrawn with heq | heq | hmem | hmem
      · exact Or.inl heq
      · exact Or.inr (Or.inl heq)
      · exact Or.inr (Or.inr (Or.inl (Or.inl hmem)))
      · refine Or.inr (Or.inr (Or.inl (Or.inr ?_)))
        rw [List.filterMap_cons]
        cases hdraw : issuing.env.entropy with
        | none => simp [hdraw] at hmem
        | some drawn =>
            simp only [List.filterMap_cons, hdraw, List.filterMap_nil,
              List.mem_singleton] at hmem
            simp [hmem]
    have hmessage := hdistinct secret hmine _ hissuer _ _ _ _ htag
    have hbound : candidate < 256 ^ 8 := by
      have hlt := CookieCall.epoch_lt hlater
      simp only [List.mem_cons, List.not_mem_nil, or_false] at hcandidate
      omega
    obtain ⟨hsame, hepochs⟩ := cookieMessage_inj hbound
      (CookieCall.epoch_lt hissued) hmessage
    rcases hwrong with hother | hlate
    · exact hother hsame
    · simp only [List.mem_cons, List.not_mem_nil, or_false] at hcandidate
      omega

end StatelessCookieAuthority

namespace CookieWitness

def firstSecret : Key := FixedBytes.replicate 32 7

def nextSecret : Key := FixedBytes.replicate 32 9

def peer : SocketAddr := ⟨.v4 ⟨[198, 51, 100, 3], rfl⟩, 4321⟩

/-- Another port at the same address. -/
def other : SocketAddr := ⟨.v4 ⟨[198, 51, 100, 3], rfl⟩, 4322⟩

/-- HMAC-SHA256 of the messages that occur below. -/
def tags : List ((Key × Bytes) × FixedBytes 32) :=
  [((firstSecret, cookieMessage peer 10),
    ⟨[226, 200, 172, 9, 167, 193, 136, 109, 152, 104, 143, 11, 30, 81,
      147, 161, 50, 126, 99, 156, 216, 131, 95, 238, 105, 206, 63, 78,
      57, 15, 35, 98], rfl⟩),
   ((firstSecret, cookieMessage peer 11),
    ⟨[114, 23, 78, 177, 97, 142, 239, 176, 245, 242, 193, 233, 23, 197,
      156, 23, 112, 72, 23, 139, 167, 67, 222, 150, 245, 105, 229, 229,
      105, 98, 45, 245], rfl⟩),
   ((firstSecret, cookieMessage other 10),
    ⟨[214, 123, 250, 196, 44, 236, 247, 236, 204, 182, 186, 167, 13, 92,
      174, 22, 2, 115, 93, 37, 242, 9, 39, 71, 87, 210, 99, 35, 130, 48,
      53, 152], rfl⟩),
   ((firstSecret, cookieMessage other 11),
    ⟨[0, 37, 168, 10, 254, 254, 6, 218, 33, 205, 57, 226, 147, 150, 223,
      186, 17, 175, 160, 124, 198, 140, 213, 49, 172, 230, 107, 45, 137,
      253, 230, 94], rfl⟩),
   ((nextSecret, cookieMessage peer 10),
    ⟨[34, 98, 202, 7, 117, 120, 93, 26, 175, 76, 113, 189, 157, 142, 73,
      171, 12, 163, 175, 99, 228, 146, 149, 182, 92, 146, 152, 110, 117,
      251, 109, 115], rfl⟩),
   ((nextSecret, cookieMessage peer 11),
    ⟨[203, 131, 31, 115, 203, 97, 32, 211, 124, 137, 0, 245, 56, 49, 56,
      184, 232, 103, 60, 106, 120, 92, 101, 33, 6, 169, 214, 42, 28,
      144, 81, 82], rfl⟩),
   ((nextSecret, cookieMessage other 10),
    ⟨[238, 82, 195, 18, 159, 34, 54, 10, 46, 184, 94, 103, 211, 133, 21,
      13, 231, 240, 244, 22, 15, 107, 65, 88, 223, 241, 190, 213, 87,
      238, 202, 18], rfl⟩),
   ((nextSecret, cookieMessage other 11),
    ⟨[253, 13, 226, 115, 65, 220, 246, 185, 132, 219, 192, 32, 28, 136,
      236, 208, 222, 120, 248, 220, 68, 200, 161, 17, 144, 16, 152, 152,
      2, 119, 179, 172], rfl⟩)]

/-- A function that is HMAC-SHA256 on these messages and otherwise pads the
message. -/
def hmac (secret : Key) (message : Bytes) : FixedBytes 32 :=
  match tags.lookup (secret, message) with
  | some tag => tag
  | none =>
      ⟨(message.drop 22 ++ List.replicate 32 0).take 32, by
        rw [List.length_take, List.length_append, List.length_replicate]
        omega⟩

/-- What is left of a message behind the domain. -/
theorem cookieMessage_drop (peer : SocketAddr) (epoch : Nat) :
    ∃ family rest, (cookieMessage peer epoch).drop 22 = family :: rest ∧
      (family = 4 ∧ rest.length = 14 ∨ family = 6 ∧ rest.length = 26) ∧
      cookieMessage peer epoch = cookieDomain ++ family :: rest := by
  have hdomain : cookieDomain.length = 22 := by decide
  have hdrop (rest : Bytes) : (cookieDomain ++ rest).drop 22 = rest := by
    rw [← hdomain, List.drop_left]
  cases peer with
  | mk ip port =>
      cases ip with
      | v4 octets =>
          exact ⟨4, octets.val ++ (bigEndian 2 port.toNat ++ bigEndian 8 epoch),
            hdrop _, Or.inl ⟨rfl, by simp [octets.length_eq]⟩, rfl⟩
      | v6 octets =>
          exact ⟨6, octets.val ++ (bigEndian 2 port.toNat ++ bigEndian 8 epoch),
            hdrop _, Or.inr ⟨rfl, by simp [octets.length_eq]⟩, rfl⟩

theorem hmac_cases (secret : Key) (peer : SocketAddr) (epoch : Nat) :
    ((secret, cookieMessage peer epoch),
        hmac secret (cookieMessage peer epoch)) ∈ tags ∨
      ∃ family rest, cookieMessage peer epoch =
          cookieDomain ++ family :: rest ∧
        (family = 4 ∧ rest.length = 14 ∨ family = 6 ∧ rest.length = 26) ∧
        (hmac secret (cookieMessage peer epoch)).val =
          family :: rest ++ List.replicate (31 - rest.length) 0 := by
  cases hlookup : tags.lookup (secret, cookieMessage peer epoch) with
  | some tag =>
      left
      obtain ⟨front, back, hsplit, _⟩ := List.lookup_eq_some_iff.mp hlookup
      have hvalue : hmac secret (cookieMessage peer epoch) = tag := by
        rw [hmac, hlookup]
      rw [hvalue, hsplit]
      simp
  | none =>
      right
      obtain ⟨family, rest, hdrop, hfamily, hmessage⟩ :=
        cookieMessage_drop peer epoch
      refine ⟨family, rest, hmessage, hfamily, ?_⟩
      have hvalue : (hmac secret (cookieMessage peer epoch)).val =
          ((cookieMessage peer epoch).drop 22 ++
            List.replicate 32 0).take 32 := by
        rw [hmac, hlookup]
      have hshort : (family :: rest).length ≤ 32 := by
        rw [List.length_cons]
        omega
      rw [hvalue, hdrop, List.take_append, List.take_of_length_le hshort,
        List.take_replicate, List.length_cons]
      congr 2
      omega

theorem hmac_distinct (secrets : List Key) :
    StatelessCookieAuthority.TagsDistinct hmac secrets := by
  have htable : ∀ entry ∈ tags, entry.2.val.getLast? ≠ some 0 := by decide
  have hunique : (tags.map Prod.snd).Nodup := by decide
  have hlast {front : Bytes} {count : Nat} (hcount : 0 < count) :
      (front ++ List.replicate count (0 : UInt8)).getLast? = some 0 := by
    obtain ⟨count, rfl⟩ := Nat.exists_eq_succ_of_ne_zero hcount.ne'
    rw [List.replicate_succ', ← List.append_assoc, List.getLast?_concat]
  intro secret _ secret' _ peer peer' epoch epoch' heq
  rcases hmac_cases secret peer epoch with hmem |
    ⟨family, rest, hmessage, hfamily, hvalue⟩
  · rcases hmac_cases secret' peer' epoch' with hmem' |
      ⟨family, rest, _, hfamily, hvalue⟩
    · have hentry := List.inj_on_of_nodup_map hunique hmem hmem' heq
      simp only [Prod.mk.injEq] at hentry
      exact hentry.1.2
    · refine absurd ?_ (htable _ hmem)
      rw [heq, hvalue]
      exact hlast (by omega)
  · rcases hmac_cases secret' peer' epoch' with hmem' |
      ⟨family', rest', hmessage', hfamily', hvalue'⟩
    · refine absurd ?_ (htable _ hmem')
      rw [← heq, hvalue]
      exact hlast (by omega)
    · rw [hmessage, hmessage']
      rw [heq, hvalue', List.cons_append, List.cons_append,
        List.cons.injEq] at hvalue
      have hlength : rest'.length = rest.length := by
        rcases hfamily with ⟨hfour, hl⟩ | ⟨hsix, hl⟩ <;>
          rcases hfamily' with ⟨hfour', hl'⟩ | ⟨hsix', hl'⟩
        · omega
        · rw [hfour, hsix'] at hvalue
          exact absurd hvalue.1 (by decide)
        · rw [hsix, hfour'] at hvalue
          exact absurd hvalue.1 (by decide)
        · omega
      rw [hvalue.1, (List.append_inj hvalue.2 hlength).1]

def start : StatelessCookieAuthority :=
  { currentSecret := firstSecret, previousSecret := FixedBytes.replicate 32 8
    currentEpoch := 10 }

def issuing : CookieCall :=
  { request := .issue peer, env := { now := some 305, entropy := none } }

def cookie : FixedBytes 32 := hmac firstSecret (cookieMessage peer 10)

def verifying (address : SocketAddr) : CookieCall :=
  { request := .verify address cookie.val
    env := { now := some 331, entropy := some nextSecret } }

end CookieWitness

open StatelessCookieAuthority CookieWitness in
/-- A cookie of epoch 10 in epoch 11, for its own port and for another one. -/
theorem cookie_lifetime_rotation :
    new (some firstSecret) (some (FixedBytes.replicate 32 8)) (some 300) =
        .ok start ∧
      (serve hmac (final (serve hmac) start [issuing]) (verifying peer)).1 =
        .ok (.verified true) ∧
      (serve hmac (final (serve hmac) start [issuing]) (verifying other)).1 =
        .ok (.verified false) :=
  ⟨rfl,
    (cookie_lifetime hmac start [] [] issuing (verifying peer) peer peer cookie
      10 11 ⟨rfl, rfl⟩ ⟨rfl, rfl⟩ rfl (by decide) rfl).1 rfl (by decide),
    (cookie_lifetime hmac start [] [] issuing (verifying other) peer other
      cookie 10 11 ⟨rfl, rfl⟩ ⟨rfl, rfl⟩ rfl (by decide) rfl).2
      (hmac_distinct _) (Or.inl (by decide))⟩

end Shph
