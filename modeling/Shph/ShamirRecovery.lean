/-
Recovery from shares: any selection of enough shares, in any order, gives the
secret back as long as the shares together stay within the recovery limit.
-/
import Shph.ShamirField

namespace Shph

open ByteCodec

instance shamirPrimeFact : Fact (Nat.Prime shamirPrime) :=
  ⟨by norm_num [shamirPrime]⟩

/-- The polynomials of a secret: one for each byte, with the byte as its
constant term. -/
def Dealt (threshold : Nat) (secret : Bytes) (polys : List (List Nat)) :
    Prop :=
  List.Forall₂ (fun byte poly => poly.head? = some byte.toNat ∧
    poly.length = threshold) secret polys

/-- The words of the share at a point. -/
def shareRow (polys : List (List Nat)) (x : Nat) : List UInt16 :=
  polys.map fun poly => UInt16.ofNat (gfEval poly x shamirPrime)

def shareAt (polys : List (List Nat)) (x : Nat) : ShamirShare :=
  { index := UInt8.ofNat x, payloadB64 := encodeU16Array (shareRow polys x) }

@[simp] theorem shareRow_length (polys : List (List Nat)) (x : Nat) :
    (shareRow polys x).length = polys.length :=
  List.length_map _

theorem shareValue_toNat (poly : List Nat) (x : Nat) :
    (UInt16.ofNat (gfEval poly x shamirPrime)).toNat =
      gfEval poly x shamirPrime := by
  have hlt := gfEval_lt (p := shamirPrime) (by decide) poly x
  rw [UInt16.toNat_ofNat']
  apply Nat.mod_eq_of_lt
  simp only [shamirPrime] at hlt ⊢
  omega

theorem sampleCoefficients_length {source : RandomSource} {fuel count : Nat}
    {state next : source.State} {coeffs : List Nat}
    (hsome : sampleCoefficients source fuel count state =
      some (coeffs, next)) : coeffs.length = count := by
  induction count generalizing state coeffs next with
  | zero =>
      rw [sampleCoefficients, Option.some.injEq, Prod.mk.injEq] at hsome
      rw [← hsome.1]
      rfl
  | succ count ih =>
      simp only [sampleCoefficients, bind, Option.bind_eq_some_iff, pure,
        Option.some.injEq, Prod.mk.injEq] at hsome
      obtain ⟨_, _, ⟨rest, _⟩, hrest, rfl, _⟩ := hsome
      rw [List.length_cons, ih hrest]

/-- The loop over the secret appends to every row the values of the same
polynomials at the point of the row. -/
theorem splitRows_some {source : RandomSource} {fuel threshold : Nat}
    {secret : Bytes} {state : source.State} {rows result : List (List UInt16)}
    (hpos : 0 < threshold)
    (hsome : splitRows source fuel threshold secret state rows =
      some result) :
    ∃ polys, Dealt threshold secret polys ∧
      result = rows.mapIdx fun idx row => row ++ shareRow polys (idx + 1) := by
  induction secret generalizing state rows with
  | nil =>
      rw [splitRows, Option.some.injEq] at hsome
      refine ⟨[], .nil, ?_⟩
      rw [← hsome]
      apply List.ext_getElem
      · simp
      · intro idx hleft hright
        simp [shareRow]
  | cons byte secret ih =>
      simp only [splitRows, bind, Option.bind_eq_some_iff] at hsome
      obtain ⟨⟨coeffs, next⟩, hcoeffs, hrest⟩ := hsome
      have hlength := sampleCoefficients_length hcoeffs
      obtain ⟨polys, hdealt, rfl⟩ := ih hrest
      refine ⟨(byte.toNat :: coeffs) :: polys, .cons ⟨rfl, ?_⟩ hdealt, ?_⟩
      · rw [List.length_cons, hlength]
        omega
      · simp [pushValues, List.mapIdx_mapIdx, shareRow, Function.comp_def]

/-- The shares of a successful split, point by point. -/
theorem splitSecret_ok {source : RandomSource} {fuel : Nat}
    {state : source.State} {secret : Bytes} {config : ShamirConfig}
    {shares : List ShamirShare} (henabled : config.enabled = true)
    (hok : splitSecret source fuel state secret config = .ok shares) :
    ¬ config.invalid ∧ secret.length ≤ maxShamirSecretBytes ∧
      ∃ polys, Dealt config.threshold secret polys ∧
        shares = (List.range config.shares).map fun idx =>
          shareAt polys (idx + 1) := by
  have hdisabled : ¬ config.enabled = false := by simp [henabled]
  simp only [splitSecret, if_neg hdisabled, bind_eq_ok_iff, ensure_eq_ok_iff,
    okOr_eq_ok_iff, exists_const, pure_eq_ok_iff] at hok
  obtain ⟨hvalid, hlength, rows, hrows, rfl⟩ := hok
  have hpos : 0 < config.threshold := by
    simp only [ShamirConfig.invalid, not_or] at hvalid
    omega
  obtain ⟨polys, hdealt, rfl⟩ := splitRows_some hpos hrows
  refine ⟨hvalid, hlength, polys, hdealt, ?_⟩
  apply List.ext_getElem
  · simp
  · intro idx hleft hright
    simp [shareAt]

theorem Dealt.length_eq {threshold : Nat} {secret : Bytes}
    {polys : List (List Nat)} (hdealt : Dealt threshold secret polys) :
    polys.length = secret.length :=
  (List.Forall₂.length_eq hdealt).symm

theorem u16Chunks_flatMap (values : List UInt16) :
    u16Chunks (values.flatMap fun value => littleEndian 2 value.toNat) =
      values := by
  induction values with
  | nil => rfl
  | cons value values ih =>
      have hvalue : ofLittleEndian (littleEndian 2 value.toNat) =
          value.toNat := by
        apply ofLittleEndian_littleEndian
        have hlt := value.toNat_lt
        omega
      have hhead : UInt16.ofNat (ofLittleEndian (littleEndian 2 value.toNat)) =
          value := by
        rw [hvalue, UInt16.ofNat_toNat]
      rw [List.flatMap_cons]
      change UInt16.ofNat (ofLittleEndian (littleEndian 2 value.toNat)) ::
        u16Chunks (values.flatMap fun value => littleEndian 2 value.toNat) = _
      rw [hhead, ih]

theorem flatMap_littleEndian_length (values : List UInt16) :
    (values.flatMap fun value => littleEndian 2 value.toNat).length =
      2 * values.length := by
  induction values with
  | nil => rfl
  | cons value values ih =>
      rw [List.flatMap_cons, List.length_append, littleEndian_length, ih,
        List.length_cons]
      omega

/-- The payload of a share decodes to its words. -/
theorem decodeU16Array_encodeU16Array {values : List UInt16}
    (hlength : values.length ≤ maxShamirSecretBytes) :
    decodeU16Array (encodeU16Array values) = .ok values := by
  have hbytes := flatMap_littleEndian_length values
  simp only [decodeU16Array, encodeU16Array, bind_eq_ok_iff, ensure_eq_ok_iff,
    okOr_eq_ok_iff, exists_const, Base64.decode_encode,
    Base64.encode_utf8ByteSize, hbytes, pure_eq_ok_iff]
  simp only [maxShamirSecretBytes, maxShamirPayloadBytes] at hlength
  refine ⟨?_, _, rfl, ?_, ?_, u16Chunks_flatMap values⟩
  · simp only [maxShamirPayloadB64Bytes, maxShamirPayloadBytes]
    omega
  · rw [hbytes]
    omega
  · rw [hbytes, maxShamirPayloadBytes]
    omega

/-- What the loop over the shares at some points collects. -/
def collected (config : ShamirConfig) (polys : List (List Nat))
    (xs : List Nat) : Recovery :=
  { decoded := (xs.take config.threshold).map fun x => (x, shareRow polys x)
    lens := (xs.map fun _ => polys.length).toFinset
    indices := (xs.map UInt8.ofNat).toFinset
    decodedBytes := 2 * polys.length * xs.length }

section

variable {config : ShamirConfig} {polys : List (List Nat)}

theorem index_toNat {x : Nat} (hx : x ≤ 255) : (UInt8.ofNat x).toNat = x := by
  rw [UInt8.toNat_ofNat']
  omega

theorem collected_nil : collected config polys [] = Recovery.empty := by
  simp [collected, Recovery.empty]

theorem collected_snoc (done : List Nat) (x : Nat) :
    collected config polys (done ++ [x]) =
      { decoded :=
          if (collected config polys done).decoded.length < config.threshold
          then (collected config polys done).decoded ++ [(x, shareRow polys x)]
          else (collected config polys done).decoded
        lens := insert polys.length (collected config polys done).lens
        indices := insert (UInt8.ofNat x) (collected config polys done).indices
        decodedBytes := (collected config polys done).decodedBytes +
          2 * polys.length } := by
  unfold collected
  rw [Recovery.mk.injEq]
  refine ⟨?_, ?_, ?_, ?_⟩
  · dsimp only
    rw [List.length_map, List.length_take, List.take_append, List.map_append]
    split
    · rename_i hroom
      have hone : 1 ≤ config.threshold - done.length := by omega
      rw [List.take_of_length_le (l := [x]) (by simpa using hone)]
      rfl
    · rename_i hfull
      have hzero : config.threshold - done.length = 0 := by omega
      rw [hzero, List.take_zero, List.map_nil, List.append_nil]
  · ext length
    simp
  · ext index
    simp
  · rw [List.length_append, List.length_singleton]
    ring

/-- One more share of the split: it is added, or the limit is reached. -/
theorem add_shareAt {done : List Nat} {x : Nat} (hx : 1 ≤ x)
    (hconfig : x ≤ config.shares) (hshares : config.shares ≤ 255)
    (hdone : ∀ old ∈ done, old ≤ 255) (hfresh : x ∉ done)
    (hpolys : polys.length ≤ maxShamirSecretBytes)
    (hbytes : 2 * polys.length * done.length ≤ maxShamirRecoveryBytes) :
    Recovery.add config (collected config polys done) (shareAt polys x) =
      if 2 * polys.length * (done.length + 1) ≤ maxShamirRecoveryBytes then
        .ok (collected config polys (done ++ [x]))
      else
        .error (.resourceExhausted
          "Shamir recovery input exceeds the safety limit") := by
  have hlength : (shareRow polys x).length ≤ maxShamirSecretBytes := by
    rw [shareRow_length]
    exact hpolys
  have hnext : 2 * polys.length * (done.length + 1) =
      2 * polys.length * done.length + 2 * polys.length := Nat.mul_succ _ _
  have hsum : checkedAdd (collected config polys done).decodedBytes
      (saturatingMul (shareRow polys x).length 2) =
        some (2 * polys.length * (done.length + 1)) := by
    have hdouble : saturatingMul (shareRow polys x).length 2 =
        2 * polys.length := by
      simp only [maxShamirSecretBytes, maxShamirPayloadBytes] at hpolys
      rw [saturatingMul, shareRow_length, u64Max]
      omega
    rw [hdouble, checkedAdd_eq_some_iff, hnext]
    refine ⟨?_, rfl⟩
    change 2 * polys.length * done.length + _ ≤ _
    simp only [maxShamirSecretBytes, maxShamirPayloadBytes,
      maxShamirRecoveryBytes, u64Max] at hpolys hbytes ⊢
    omega
  have hindex : (shareAt polys x).index.toNat = x := index_toNat (by omega)
  have hdecode : decodeU16Array (shareAt polys x).payloadB64 =
      .ok (shareRow polys x) := decodeU16Array_encodeU16Array hlength
  by_cases hroom : 2 * polys.length * (done.length + 1) ≤
      maxShamirRecoveryBytes
  · rw [if_pos hroom]
    simp only [Recovery.add, hdecode]
    simp only [bind_eq_ok_iff, ensure_eq_ok_iff, okOr_eq_ok_iff, exists_const,
      hsum, pure_eq_ok_iff]
    refine ⟨_, rfl, hroom, ?_, ?_, ?_, ?_⟩
    · rw [hindex]
      rintro (hzero | hlarge)
      · rw [hzero, UInt8.toNat_zero] at hindex
        omega
      · omega
    · intro hmem
      simp only [collected, List.mem_toFinset, List.mem_map] at hmem
      obtain ⟨old, hold, heq⟩ := hmem
      have hsame := congrArg UInt8.toNat heq
      rw [hindex, index_toNat (hdone old hold)] at hsame
      exact hfresh (hsame ▸ hold)
    · rintro ⟨value, hvalue, hlarge⟩
      obtain ⟨poly, _, rfl⟩ := List.mem_map.mp hvalue
      have hlt := gfEval_lt (p := shamirPrime) (by decide) poly x
      rw [UInt16.lt_iff_toNat_lt, shareValue_toNat] at hlarge
      change 256 < _ at hlarge
      simp only [shamirPrime] at hlt hlarge
      omega
    · rw [collected_snoc, hindex, shareRow_length, hnext]
      rfl
  · rw [if_neg hroom]
    have hrefused : ensure (2 * polys.length * (done.length + 1) ≤
        maxShamirRecoveryBytes) (.resourceExhausted
          "Shamir recovery input exceeds the safety limit") =
        .error (.resourceExhausted
          "Shamir recovery input exceeds the safety limit") :=
      if_neg hroom
    simp only [Recovery.add, hdecode, hsum, okOr, bind, Except.bind, hrefused]

/-- The loop over any list of shares at distinct points. -/
theorem foldlM_add_shareAt (hshares : config.shares ≤ 255)
    (hpolys : polys.length ≤ maxShamirSecretBytes) (rest done : List Nat)
    (hpoints : ∀ x ∈ done ++ rest, 1 ≤ x ∧ x ≤ config.shares)
    (hnodup : (done ++ rest).Nodup)
    (hbytes : 2 * polys.length * done.length ≤ maxShamirRecoveryBytes) :
    (rest.map (shareAt polys)).foldlM (Recovery.add config)
        (collected config polys done) =
      if 2 * polys.length * (done ++ rest).length ≤ maxShamirRecoveryBytes then
        .ok (collected config polys (done ++ rest))
      else
        .error (.resourceExhausted
          "Shamir recovery input exceeds the safety limit") := by
  induction rest generalizing done with
  | nil =>
      rw [List.append_nil, if_pos hbytes]
      rfl
  | cons x rest ih =>
      have hx := hpoints x (by simp)
      have hfresh : x ∉ done := by
        intro hmem
        exact (List.nodup_append.mp hnodup).2.2 x hmem x (by simp) rfl
      have hdone : ∀ old ∈ done, old ≤ 255 := by
        intro old hold
        exact (hpoints old (by simp [hold])).2.trans hshares
      have hsplit : done ++ x :: rest = (done ++ [x]) ++ rest := by simp
      rw [List.map_cons, List.foldlM_cons, add_shareAt hx.1 hx.2 hshares hdone
        hfresh hpolys hbytes]
      by_cases hroom : 2 * polys.length * (done.length + 1) ≤
          maxShamirRecoveryBytes
      · rw [if_pos hroom, hsplit]
        rw [hsplit] at hpoints hnodup
        exact ih (done ++ [x]) hpoints hnodup (by simpa using hroom)
      · have hmore : ¬ 2 * polys.length * (done ++ x :: rest).length ≤
            maxShamirRecoveryBytes := by
          intro hle
          apply hroom
          refine (Nat.mul_le_mul_left _ ?_).trans hle
          rw [List.length_append, List.length_cons]
          omega
        rw [if_neg hroom, if_neg hmore]
        rfl

/-- One byte comes back from enough points. -/
theorem recoverByte_collected {xs : List Nat} {secret : Bytes}
    (hdealt : Dealt config.threshold secret polys)
    (hpoints : ∀ x ∈ xs, 1 ≤ x ∧ x ≤ config.shares)
    (hshares : config.shares ≤ 255) (hnodup : xs.Nodup)
    (hmany : config.threshold ≤ xs.length) {index : Nat}
    (hindex : index < secret.length) :
    recoverByte config (collected config polys xs).decoded index =
      secret[index] := by
  have hpoly : index < polys.length := by
    rw [hdealt.length_eq]
    exact hindex
  obtain ⟨hhead, hlength⟩ := List.Forall₂.get hdealt hindex hpoly
  let coeffs := polys[index]
  have hpointsEq : ((collected config polys xs).decoded.take
      config.threshold).map (fun entry =>
        (entry.1, (entry.2.getD index 0).toNat)) =
      (xs.take config.threshold).map fun x =>
        (x, gfEval coeffs x shamirPrime) := by
    rw [collected, ← List.map_take, List.take_take, Nat.min_self, List.map_map]
    apply List.map_congr_left
    intro x _
    simp only [Function.comp_apply, Prod.mk.injEq, true_and]
    rw [shareRow, List.getD_eq_getElem _ _ (by simpa using hpoly),
      List.getElem_map, shareValue_toNat]
  have hlt : ∀ x ∈ xs.take config.threshold, x < shamirPrime := by
    intro x hx
    have hbound := hpoints x (List.mem_of_mem_take hx)
    simp only [shamirPrime]
    omega
  have hvalue := gfLagrangeOrigin_gfEval (p := shamirPrime) (by decide) coeffs
    (xs.take config.threshold) hlt (hnodup.sublist (List.take_sublist _ _))
    (by rw [List.length_take, Nat.min_eq_left hmany]; exact hlength.symm)
  have hbyte : coeffs.headD 0 = secret[index].toNat := by
    rw [List.headD_eq_head?_getD]
    exact congrArg (Option.getD · 0) hhead
  have hsmall := secret[index].toNat_lt
  rw [recoverByte, hpointsEq]
  change UInt8.ofNat (gfLagrangeOrigin _ shamirPrime) = _
  rw [hvalue, hbyte, Nat.mod_eq_of_lt, UInt8.ofNat_toNat]
  simp only [shamirPrime]
  omega

theorem collected_indices_card {xs : List Nat} (hshares : config.shares ≤ 255)
    (hpoints : ∀ x ∈ xs, 1 ≤ x ∧ x ≤ config.shares) (hnodup : xs.Nodup) :
    (collected config polys xs).indices.card = xs.length := by
  rw [collected, List.toFinset_card_of_nodup, List.length_map]
  apply hnodup.map_on
  intro left hleft right hright heq
  have hsame := congrArg UInt8.toNat heq
  rw [index_toNat ((hpoints left hleft).2.trans hshares),
    index_toNat ((hpoints right hright).2.trans hshares)] at hsame
  exact hsame

theorem collected_lens_card {x : Nat} {xs : List Nat} :
    (collected config polys (x :: xs)).lens.card = 1 := by
  rw [Finset.card_eq_one]
  refine ⟨polys.length, ?_⟩
  ext length
  simp only [collected, List.mem_toFinset, List.mem_map, List.mem_cons,
    Finset.mem_singleton]
  constructor
  · rintro ⟨_, _, rfl⟩
    rfl
  · rintro rfl
    exact ⟨x, Or.inl rfl, rfl⟩

/-- The whole recovery on shares of one split: the secret, or the documented
refusal of too much material. -/
theorem recoverSecretFromShares_shareAt {xs : List Nat} {secret : Bytes}
    (henabled : config.enabled = true) (hvalid : ¬ config.invalid)
    (hdealt : Dealt config.threshold secret polys)
    (hsecret : secret.length ≤ maxShamirSecretBytes)
    (hpoints : ∀ x ∈ xs, 1 ≤ x ∧ x ≤ config.shares) (hnodup : xs.Nodup)
    (hmany : config.threshold ≤ xs.length)
    (hfew : xs.length ≤ config.shares) :
    recoverSecretFromShares (xs.map (shareAt polys)) config =
      if 2 * secret.length * xs.length ≤ maxShamirRecoveryBytes then .ok secret
      else
        .error (.resourceExhausted
          "Shamir recovery input exceeds the safety limit") := by
  have hdisabled : ¬ config.enabled = false := by simp [henabled]
  have hshares : config.shares ≤ 255 ∧ 0 < config.threshold := by
    simp only [ShamirConfig.invalid, not_or] at hvalid
    omega
  have hlength := hdealt.length_eq
  have hloop := foldlM_add_shareAt hshares.1 (hlength ▸ hsecret) xs []
    (by simpa using hpoints) (by simpa using hnodup) (Nat.zero_le _)
  rw [List.nil_append, hlength] at hloop
  have hchecks : validateShamirConfig config = .ok () := by
    rw [validateShamirConfig, ensure_eq_ok_iff]
    exact fun hboth => hvalid hboth.2
  have hlower : ¬ (xs.map (shareAt polys)).length < config.threshold := by
    rw [List.length_map]
    omega
  have hupper : ¬ config.shares < (xs.map (shareAt polys)).length := by
    rw [List.length_map]
    omega
  rw [collected_nil] at hloop
  rw [recoverSecretFromShares, if_neg hdisabled]
  by_cases hroom : 2 * secret.length * xs.length ≤ maxShamirRecoveryBytes
  · rw [if_pos hroom] at hloop ⊢
    obtain ⟨x, rest, rfl⟩ : ∃ x rest, xs = x :: rest :=
      List.exists_cons_of_length_pos (by omega)
    have hfirst : (collected config polys (x :: rest)).decoded.head? =
        some (x, shareRow polys x) := by
      obtain ⟨count, hcount⟩ := Nat.exists_eq_succ_of_ne_zero hshares.2.ne'
      simp [collected, hcount]
    simp only [bind_eq_ok_iff, ensure_eq_ok_iff, okOr_eq_ok_iff, exists_const,
      pure_eq_ok_iff]
    refine ⟨(), hchecks, hlower, hupper, _, hloop, ?_, collected_lens_card, _,
      hfirst, ?_⟩
    · rw [collected_indices_card hshares.1 hpoints hnodup]
      omega
    · apply List.ext_getElem
      · rw [List.length_map, List.length_range, shareRow_length, hlength]
      · intro index hleft hright
        rw [List.getElem_map, List.getElem_range]
        exact recoverByte_collected hdealt hpoints hshares.1 hnodup hmany
          hright
  · rw [if_neg hroom] at hloop ⊢
    have hensured {condition : Prop} [Decidable condition] {error : ShphError}
        (hcondition : condition) : ensure condition error = .ok () :=
      if_pos hcondition
    simp only [hchecks, hensured hlower, hensured hupper, hloop, bind,
      Except.bind]

end

/-- A selection of the shares of a split is the shares at distinct points. -/
theorem selection_points {config : ShamirConfig} {polys : List (List Nat)}
    {selected : List ShamirShare} (hshares : config.shares ≤ 255)
    (hselected : selected.Subperm ((List.range config.shares).map fun idx =>
      shareAt polys (idx + 1))) :
    ∃ xs : List Nat, selected = xs.map (shareAt polys) ∧ xs.Nodup ∧
      ∀ x ∈ xs, 1 ≤ x ∧ x ≤ config.shares := by
  let point (share : ShamirShare) := share.index.toNat
  have hmember : ∀ share ∈ selected, share = shareAt polys (point share) ∧
      1 ≤ point share ∧ point share ≤ config.shares := by
    intro share hshare
    obtain ⟨idx, hidx, rfl⟩ := List.mem_map.mp (hselected.subset hshare)
    have hlt := List.mem_range.mp hidx
    have hpoint : point (shareAt polys (idx + 1)) = idx + 1 :=
      index_toNat (by omega)
    rw [hpoint]
    exact ⟨rfl, by omega, by omega⟩
  refine ⟨selected.map point, ?_, ?_, ?_⟩
  · rw [List.map_map]
    nth_rewrite 1 [← List.map_id selected]
    apply List.map_congr_left
    intro share hshare
    exact (hmember share hshare).1
  · obtain ⟨chosen, hperm, hsublist⟩ := hselected
    have hnodup : (((List.range config.shares).map fun idx =>
        shareAt polys (idx + 1)).map point).Nodup := by
      rw [List.map_map]
      apply List.nodup_range.map_on
      intro left hleft right hright heq
      have hl := List.mem_range.mp hleft
      have hr := List.mem_range.mp hright
      have hsame : (UInt8.ofNat (left + 1)).toNat =
          (UInt8.ofNat (right + 1)).toNat := heq
      rw [index_toNat (by omega), index_toNat (by omega)] at hsame
      omega
    exact (hperm.map point).nodup_iff.mp
      (hnodup.sublist (hsublist.map point))
  · intro x hx
    obtain ⟨share, hshare, rfl⟩ := List.mem_map.mp hx
    exact (hmember share hshare).2

/-- Any selection of at least `threshold` shares, in any order, recovers the
secret when the shares stay within the recovery limit together; otherwise the
recovery refuses. -/
theorem recoverSecretFromShares_splitSecret (source : RandomSource)
    (fuel : Nat) (state : source.State) (secret : Bytes)
    (config : ShamirConfig) (shares selected : List ShamirShare)
    (henabled : config.enabled = true)
    (hsplit : splitSecret source fuel state secret config = .ok shares)
    (hselected : selected.Subperm shares)
    (hmany : config.threshold ≤ selected.length) :
    (2 * secret.length * selected.length ≤ maxShamirRecoveryBytes →
        recoverSecretFromShares selected config = .ok secret) ∧
      (maxShamirRecoveryBytes < 2 * secret.length * selected.length →
        recoverSecretFromShares selected config =
          .error (.resourceExhausted
            "Shamir recovery input exceeds the safety limit")) := by
  obtain ⟨hvalid, hsecret, polys, hdealt, rfl⟩ :=
    splitSecret_ok henabled hsplit
  have hshares : config.shares ≤ 255 := by
    simp only [ShamirConfig.invalid, not_or] at hvalid
    omega
  have hfew := hselected.length_le
  rw [List.length_map, List.length_range] at hfew
  obtain ⟨xs, rfl, hnodup, hpoints⟩ := selection_points hshares hselected
  rw [List.length_map] at hmany hfew ⊢
  rw [recoverSecretFromShares_shareAt henabled hvalid hdealt hsecret hpoints
    hnodup hmany hfew]
  exact ⟨fun hroom => if_pos hroom,
    fun hfull => if_neg (Nat.not_le_of_lt hfull)⟩

namespace ShamirWitness

/-- A source that draws `256, 257, 258, …`. -/
def counting : RandomSource where
  State := Nat
  nextU64 count := (UInt64.ofNat (256 + count), count + 1)

def config : ShamirConfig := { enabled := true, threshold := 2, shares := 3 }

def secret : Bytes := [7, 255]

def shares : List ShamirShare :=
  [⟨1, "BgD/AA=="⟩, ⟨2, "BQD/AA=="⟩, ⟨3, "BAD/AA=="⟩]

def selected : List ShamirShare := [⟨3, "BAD/AA=="⟩, ⟨1, "BgD/AA=="⟩]

end ShamirWitness

open ShamirWitness in
/-- Two of three shares, in the other order. -/
theorem recoverSecretFromShares_two_of_three :
    splitSecret counting 1 (0 : Nat) secret config = .ok shares ∧
      recoverSecretFromShares selected config = .ok secret := by
  have hsplit : splitSecret counting 1 (0 : Nat) secret config =
      .ok shares := by decide
  refine ⟨hsplit, ?_⟩
  exact (recoverSecretFromShares_splitSecret counting 1 (0 : Nat) secret config
    shares selected rfl hsplit (List.Nodup.subperm (by decide) (by decide))
    (by decide)).1 (by decide)

namespace ShamirWitness

/-- A source that draws zeros. -/
def zeros : RandomSource where
  State := Unit
  nextU64 _ := (0, ())

theorem sampleCoefficients_zeros (count : Nat) (state : zeros.State) :
    sampleCoefficients zeros 1 count state =
      some (List.replicate count 0, state) := by
  have hdraw : sampleFieldElement zeros shamirPrime 1 state =
      some (0, state) := rfl
  induction count with
  | zero => rfl
  | succ count ih =>
      simp only [sampleCoefficients, hdraw, bind, Option.bind_some, ih]
      rfl

theorem splitRows_zeros (threshold : Nat) (secret : Bytes)
    (state : zeros.State) (rows : List (List UInt16)) :
    ∃ result, splitRows zeros 1 threshold secret state rows = some result := by
  induction secret generalizing rows with
  | nil => exact ⟨rows, rfl⟩
  | cons byte secret ih =>
      obtain ⟨result, hresult⟩ := ih (pushValues
        (byte.toNat :: List.replicate (threshold - 1) 0) rows)
      refine ⟨result, ?_⟩
      simp only [splitRows, sampleCoefficients_zeros, bind, Option.bind_some]
      exact hresult

/-- A policy under which every share is needed. -/
def allShares : ShamirConfig :=
  { enabled := true, threshold := 33, shares := 33 }

theorem splitSecret_zeros {secret : Bytes} (state : zeros.State)
    (hsecret : secret.length ≤ maxShamirSecretBytes) :
    ∃ shares, splitSecret zeros 1 state secret allShares = .ok shares := by
  obtain ⟨rows, hrows⟩ := splitRows_zeros allShares.threshold secret state
    (List.replicate allShares.shares [])
  have hdisabled : ¬ allShares.enabled = false := by decide
  have hvalid : ¬ allShares.invalid := by decide
  refine ⟨rows.mapIdx fun idx row =>
    { index := UInt8.ofNat (idx + 1), payloadB64 := encodeU16Array row }, ?_⟩
  rw [splitSecret, if_neg hdisabled]
  simp only [bind_eq_ok_iff, ensure_eq_ok_iff, okOr_eq_ok_iff, exists_const]
  exact ⟨hvalid, hsecret, rows, hrows, rfl⟩

end ShamirWitness

open ShamirWitness in
/-- A secret of the largest size the split accepts, under a policy of 33
shares: all shares together are refused. -/
theorem recoverSecretFromShares_refuses_largest_secret :
    ∃ shares, splitSecret zeros 1 () (List.replicate 131072 0) allShares =
        .ok shares ∧
      recoverSecretFromShares shares allShares =
        .error (.resourceExhausted
          "Shamir recovery input exceeds the safety limit") := by
  have hlength : (List.replicate 131072 (0 : UInt8)).length = 131072 :=
    List.length_replicate
  have hbound : 131072 ≤ maxShamirSecretBytes := by decide
  obtain ⟨shares, hsplit⟩ := splitSecret_zeros () (hlength.le.trans hbound)
  refine ⟨shares, hsplit, ?_⟩
  obtain ⟨hvalid, hsecret, polys, hdealt, rfl⟩ := splitSecret_ok rfl hsplit
  have hpoints : (List.range allShares.shares).map
      (fun idx => shareAt polys (idx + 1)) =
        ((List.range allShares.shares).map (· + 1)).map (shareAt polys) := by
    rw [List.map_map]
    rfl
  rw [hpoints, recoverSecretFromShares_shareAt rfl hvalid hdealt hsecret
    (by decide) (by decide) (by decide) (by decide), if_neg]
  rw [hlength]
  decide

end Shph
